import VirtualContributor.Pipeline.Convergence

/-!
# Two runs on one collection

A worker acknowledges an ingest event early and runs it as a task of its own,
so two runs over one collection interleave at their calls.

* `pair_bounds`: whatever the interleaving, two successful runs leave the
  content that both corpora share and no content that neither has.
* `content_of_isolated`: the content is that of one corpus when the runs do not
  overlap, or when the corpora have the same fingerprints.
* `lost_isolation`: an interleaving that leaves the content of neither.
-/

namespace VirtualContributor.Pipeline

open Lib Program

/-! ## The setting of a pair -/

/-- The runs that may have written to the collection of two concurrent
runs. -/
abbrev pairWriters (r other : IngestRun) (earlier : List IngestRun) : Set IngestRun :=
  {r' | r' ∈ r :: other :: earlier}

/-- The setting of one of two concurrent runs, given all writers. -/
def pairSetting (host : Host) (ports : Ports) (r other : IngestRun) (runs : Set IngestRun)
    (hr : r ∈ runs) (hcoll : CollisionFree host (produced host runs)) (hids : r.ids.Nodup) :
    Setting where
  host := host
  ports := ports
  run := r
  runs := runs
  run_mem := hr
  collisionFree := hcoll
  nodup_ids := hids
  foreign := {k | (∃ c ∈ other.passages host, ContentHashStep.contentHash host c = k) ∨
    ∀ d, ¬ OwnedBy host runs k d}
  kept := {k | ∃ c ∈ other.passages host, ContentHashStep.contentHash host c = k}
  visible := {d | ∃ r' ∈ runs, d ∈ r'.ids}
  foreign_owner := by
    rintro k (⟨c, hc, rfl⟩ | hk) d howner
    · obtain ⟨r', hr', hd⟩ := OwnedBy.mem_ids howner
      exact Or.inl ⟨r', hr', hd⟩
    · exact absurd howner (hk d)

variable {host : Host} {ports : Ports} {earlier : List IngestRun} {r other : IngestRun}
  {runs : Set IngestRun} {s s' : Collection} {sched : Schedule ingestSignature}
  {result result' : IngestResult}

/-- Without suffixed ids, a run deletes none of its fingerprints. -/
theorem mem_spared (hr : r ∈ runs)
    (hcoll : CollisionFree host (produced host runs)) (hids : r.ids.Nodup)
    (hsuffix : SuffixFree runs) {c : Chunk} (hc : c ∈ r.passages host) :
    ContentHashStep.contentHash host c ∈
      (pairSetting host ports r other runs hr hcoll hids).spared := by
  refine ⟨⟨c, hc, rfl⟩, fun d howner => ?_⟩
  rintro ⟨x, ⟨⟨r', hr', hx⟩, _⟩, rfl⟩
  have hd := Setting.owner_unique (K := pairSetting host ports r other runs hr hcoll hids)
    howner (Setting.owner_of_passage hc)
  exact hsuffix r hr c.docId (IngestRun.passage_spec hc).1 r' hr' x hx hd.symm

/-- What a run promises is what the other one relies on. -/
theorem others_of_own (hr : r ∈ runs) (hother : other ∈ runs)
    (hcoll : CollisionFree host (produced host runs)) (hids : r.ids.Nodup)
    (hids' : other.ids.Nodup) (hsuffix : SuffixFree runs)
    (h : (pairSetting host ports r other runs hr hcoll hids).own.step s s') :
    (pairSetting host ports other r runs hother hcoll hids').others.step s s' := by
  refine sync_mono (fun k hk => hk) ?_ h
  rintro k ⟨c, hc, rfl⟩
  exact mem_spared hr hcoll hids hsuffix hc

/-! ## Every interleaving -/

/-- Two successful runs keep the passages that both corpora have and leave
no other content than theirs. -/
theorem pair_bounds (hr : r ∈ runs) (hother : other ∈ runs)
    (hcoll : CollisionFree host (produced host runs)) (hsuffix : SuffixFree runs)
    (hwf : WellFormed host runs s)
    (hids : r.ids.Nodup) (hids' : other.ids.Nodup)
    (hdocs : r.documents ≠ []) (hdocs' : other.documents ≠ [])
    (hrun : Par (portWorld ports) (r.program host) (other.program host) s sched result result' s')
    (hsuccess : result.success = true) (hsuccess' : result'.success = true) :
    (pairSetting host ports r other runs hr hcoll hids).Converged ∅ s' ∧
      (pairSetting host ports other r runs hother hcoll hids').Converged ∅ s' := by
  have ensures {a b : IngestRun} (ha : a ∈ runs) (hids : a.ids.Nodup)
      (hdocs : a.documents ≠ []) :
      (a.program host).Ensures (portWorld ports)
        (pairSetting host ports a b runs ha hcoll hids).others
        (pairSetting host ports a b runs ha hcoll hids).guarantee
        (fun result s' => result.success = true →
          (pairSetting host ports a b runs ha hcoll hids).Converged ∅ s') s := by
    refine Setting.program_ensures (K := pairSetting host ports a b runs ha hcoll hids) hdocs
      hwf (fun k _ d howner => ?_) (fun k hk => absurd hk (Set.notMem_empty k))
    obtain ⟨r', hr', hd⟩ := OwnedBy.mem_ids howner
    exact Or.inl ⟨r', hr', hd⟩
  obtain ⟨h, h'⟩ := hrun.sound
    (fun _ _ _ _ => others_of_own hr hother hcoll hids hids' hsuffix)
    (fun _ _ _ _ => others_of_own hother hr hcoll hids' hids hsuffix)
    (ensures hr hids hdocs) (ensures hother hids' hdocs')
  exact ⟨h hsuccess, h' hsuccess'⟩

/-! ## Serial runs and equal corpora -/

/-- The calls that do not go to the store. -/
def IngestCall.storeFree : IngestCall → Prop
  | invoke _ _ | embed _ => True
  | get _ _ | ingest _ | deleteIds _ | deleteWhere _ => False

theorem independent_of_storeFree (c : IngestCall) (h : c.storeFree) :
    Independent (portWorld ports) c := by
  intro s r s' hw
  cases c with
  | invoke role m =>
    cases r with
    | ok answer => exact ⟨hw.1, fun s'' => ⟨rfl, hw.2⟩⟩
    | error exc => exact ⟨hw, fun s'' => rfl⟩
  | embed ts =>
    cases r with
    | ok vs => exact ⟨hw.1, fun s'' => ⟨rfl, hw.2⟩⟩
    | error exc => exact ⟨hw, fun s'' => rfl⟩
  | get d b => exact h.elim
  | ingest es => exact h.elim
  | deleteIds ids => exact h.elim
  | deleteWhere d => exact h.elim

/-- Two runs whose passages have the same fingerprints. -/
def SameFingerprints (host : Host) (r other : IngestRun) : Prop :=
  ∀ k, (∃ c ∈ r.passages host, ContentHashStep.contentHash host c = k) ↔
    ∃ c ∈ other.passages host, ContentHashStep.contentHash host c = k

/-- The runs do not get into each other's way: all store calls of one come
before those of the other, or the corpora have the same fingerprints. -/
def Isolated (host : Host) (r other : IngestRun) (sched : Schedule ingestSignature) : Prop :=
  LeftFirst IngestCall.storeFree sched ∨
    LeftFirst IngestCall.storeFree (sched.map Sum.swap) ∨ SameFingerprints host r other

/-- Two successful runs leave the content of one of the corpora, unless they
get into each other's way. -/
theorem content_of_isolated (hreach : Reachable host ports earlier s)
    (hadm : Admissible host r (other :: earlier)) (hadm' : Admissible host other (r :: earlier))
    (hdocs : r.documents ≠ []) (hdocs' : other.documents ≠ [])
    (hrun : Par (portWorld ports) (r.program host) (other.program host) s sched result result' s')
    (hsuccess : result.success = true) (hsuccess' : result'.success = true)
    (hisolated : Isolated host r other sched) :
    ContentIs host r s' ∨ ContentIs host other s' := by
  rcases hisolated with hleft | hright | hsame
  · obtain ⟨s₁, t₁, t₂, h₁, h₂⟩ := hrun.serial independent_of_storeFree hleft
    exact Or.inr (content_of_success (hreach.run r h₁.reaches) hadm' hdocs' h₂ hsuccess')
  · obtain ⟨s₁, t₁, t₂, h₁, h₂⟩ := hrun.symm.serial independent_of_storeFree hright
    exact Or.inl (content_of_success (hreach.run other h₁.reaches) hadm hdocs h₂ hsuccess)
  · have hr : r ∈ writers r (other :: earlier) := List.mem_cons_self ..
    have hother : other ∈ writers r (other :: earlier) :=
      List.mem_cons_of_mem _ (List.mem_cons_self ..)
    have hcoll := hadm.collisionFree
    have hwf : WellFormed host (writers r (other :: earlier)) s :=
      hreach.wellFormed.mono fun _ h => List.mem_cons_of_mem _ (List.mem_cons_of_mem _ h)
    have hconv := (pair_bounds hr hother hcoll hadm.suffixFree hwf hadm.ids_nodup
      hadm'.ids_nodup hdocs hdocs' hrun hsuccess hsuccess').1
    refine Or.inl ⟨fun e he hcontent hne => ?_, fun c hc => ?_, fun e he e' he' =>
      Collection.eq_of_id_eq he he'⟩
    · obtain ⟨c, hc, hid, hdoc, _⟩ := hconv.wf.content he hcontent
      have howner : OwnedBy host (writers r (other :: earlier)) e.id c.docId :=
        ⟨c, hc, hid.symm, rfl⟩
      have hkey : ∃ c ∈ r.passages host, ContentHashStep.contentHash host c = e.id := by
        rcases hconv.only e.id ⟨e, he, rfl⟩ c.docId howner (fun heq => hne (heq ▸ hdoc)) with
          hk | (hk | hk) | ⟨hid, hsilent⟩
        · exact hk
        · exact (hsame e.id).mpr hk
        · exact absurd howner (hk c.docId)
        · obtain ⟨doc, hdoc, hdid⟩ := List.mem_map.mp hid
          obtain ⟨c', hc'⟩ := List.exists_mem_of_ne_nil _ (hadm.yields doc hdoc)
          refine absurd ⟨c', List.mem_flatMap.mpr ⟨doc, hdoc, hc'⟩, ?_⟩ hsilent
          exact (contentChunks_spec hc').1.trans hdid
      obtain ⟨c', hc', hkey⟩ := hkey
      exact ⟨c', hc', (entry_of_key hr hconv.wf hcoll hc' he hkey.symm).2⟩
    · have hnot : ¬ (pairSetting host ports r other _ hr hcoll hadm.ids_nodup).Endangered c.docId :=
        (mem_spared hr hcoll hadm.ids_nodup hadm.suffixFree hc).2 c.docId ⟨c, ⟨r, hr, hc⟩, rfl, rfl⟩
      obtain ⟨e, he, hid⟩ := hconv.all c hc hnot ((hsame _).mp ⟨c, hc, rfl⟩)
      exact ⟨e, he, entry_of_key hr hconv.wf hcoll hc he hid⟩

/-- Two runs of the small corpus, the first of which is interrupted by the
second after `n` calls. -/
def playPages (s : Collection) (pages pages' : List Document) (n : Nat) :
    Schedule ingestSignature × IngestResult × IngestResult × Collection :=
  play pagePorts (List.replicate n true ++ List.replicate 100 false)
    ((pageRun pages).program pageHost) ((pageRun pages').program pageHost) s

theorem playPages_par (s : Collection) (pages pages' : List Document) (n : Nat) :
    Par (portWorld .any) ((pageRun pages).program pageHost) ((pageRun pages').program pageHost) s
      (playPages s pages pages' n).1 (playPages s pages pages' n).2.1
      (playPages s pages pages' n).2.2.1 (playPages s pages pages' n).2.2.2 :=
  play_par (steadyPorts_portWorld (fun _ _ => trivial) fun _ => trivial) _ _ _ _

/-- Two deliveries of one event, the second of which runs in the middle of
the first. -/
theorem content_of_isolated_pages :
    ContentIs pageHost (pageRun [page "a" "red"])
        (playPages .empty [page "a" "red"] [page "a" "red"] 2).2.2.2 ∨
      ContentIs pageHost (pageRun [page "a" "red"])
        (playPages .empty [page "a" "red"] [page "a" "red"] 2).2.2.2 :=
  content_of_isolated .empty
    (admissible_of_lists (by decide +kernel) (by decide +kernel)
      (collisionFree_of_list (by decide +kernel)))
    (admissible_of_lists (by decide +kernel) (by decide +kernel)
      (collisionFree_of_list (by decide +kernel)))
    (by decide) (by decide) (playPages_par _ _ _ _) (by decide +kernel) (by decide +kernel)
    (Or.inr (Or.inr fun _ => Iff.rfl))

/-- The page "a" is stored and one run finds it unchanged; then another run,
without that page, removes it and stores its own.  Both succeed, and the
content is that of neither. -/
theorem lost_isolation :
    ∃ s sched result result' s', Reachable pageHost .any [pageRun [page "a" "red"]] s ∧
      Admissible pageHost (pageRun [page "a" "red", page "c" "green"])
        [pageRun [page "b" "blue"], pageRun [page "a" "red"]] ∧
      Admissible pageHost (pageRun [page "b" "blue"])
        [pageRun [page "a" "red", page "c" "green"], pageRun [page "a" "red"]] ∧
      Par (portWorld .any) ((pageRun [page "a" "red", page "c" "green"]).program pageHost)
        ((pageRun [page "b" "blue"]).program pageHost) s sched result result' s' ∧
      result.success = true ∧ result'.success = true ∧
      ¬ ContentIs pageHost (pageRun [page "a" "red", page "c" "green"]) s' ∧
      ¬ ContentIs pageHost (pageRun [page "b" "blue"]) s' := by
  refine ⟨_, _, _, _, _, runPages_reachable .empty _, ?_, ?_, playPages_par _ _ _ 3,
    by decide +kernel, by decide +kernel, fun h => ?_, fun h => ?_⟩
  · exact admissible_of_lists (by decide +kernel) (by decide +kernel)
      (collisionFree_of_list (by decide +kernel))
  · exact admissible_of_lists (by decide +kernel) (by decide +kernel)
      (collisionFree_of_list (by decide +kernel))
  · have hmissing := h.missing
    revert hmissing
    show ¬ ∀ c ∈ _, ∃ e ∈ Collection.entries _, _
    decide +kernel
  · have hstale := h.stale
    revert hstale
    show ¬ ∀ e ∈ Collection.entries _, _
    decide +kernel

end VirtualContributor.Pipeline
