import VirtualContributor.Adapters.QueryEmbedding

/-!
# Single flight of query embeddings

`Inv` says how the caches, the tasks and the calls of the adapter agree.  Every
event keeps it (`Inv.step`), so it holds in every order of the events, and
`single_flight` reads the guarantees of the adapter off it.
-/

namespace VirtualContributor.Adapters

open Lib

namespace AdapterState

variable {s s' : AdapterState}

/-! ## Tasks over time -/

/-- The task `t'` is the task `t` at a later time. -/
structure Follows (t t' : ProviderTask) : Prop where
  scope : t'.scope = t.scope
  texts : t'.texts = t.texts
  done : ∀ outcome, t.status = .done outcome → t'.status = .done outcome

theorem Follows.refl (t : ProviderTask) : Follows t t := ⟨rfl, rfl, fun _ => id⟩

/-- The tasks and the submissions of `s` are there in `s'`. -/
structure Grows (s s' : AdapterState) : Prop where
  tasks : ∀ (id : Nat) (t : ProviderTask), s.tasks[id]? = some t →
    ∃ t', s'.tasks[id]? = some t' ∧ Follows t t'
  submissions : ∀ p ∈ s.submissions, p ∈ s'.submissions

/-- The vectors are the result of a provider call with the texts that a task of
the scope made. -/
def Provided (s : AdapterState) (scope : Nat) (texts : Texts) (vectors : Vectors) : Prop :=
  ∃ id t, s.tasks[id]? = some t ∧ t.scope = scope ∧ t.texts = texts ∧
    t.status = .done (.success vectors) ∧ (id, texts) ∈ s.submissions

theorem Provided.grows {scope : Nat} {texts : Texts} {vectors : Vectors}
    (h : s.Provided scope texts vectors) (hs : Grows s s') : s'.Provided scope texts vectors := by
  obtain ⟨id, t, ht, rfl, rfl, hstatus, hmem⟩ := h
  obtain ⟨t', ht', hfollows⟩ := hs.tasks id t ht
  exact ⟨id, t', ht', hfollows.scope, hfollows.texts, hfollows.done _ hstatus,
    hs.submissions _ hmem⟩

theorem Grows.of_modify {id : Nat} {f : ProviderTask → ProviderTask}
    (htasks : s'.tasks = s.tasks.modify id f)
    (hsub : ∀ p ∈ s.submissions, p ∈ s'.submissions)
    (hf : ∀ t, s.tasks[id]? = some t → Follows t (f t)) : Grows s s' := by
  refine ⟨fun id' t ht => ?_, hsub⟩
  rw [htasks, List.getElem?_modify, ht]
  by_cases h : id = id'
  · subst h
    exact ⟨f t, by simp, hf t ht⟩
  · exact ⟨t, by simp [h], Follows.refl t⟩

/-! ## Events -/

/-- What an event does, and where it is allowed. -/
def Effect (s s' : AdapterState) : AdapterEvent → Prop
  | .enter scope => (s.scopes scope).phase = .fresh ∧ s' = s.setPhase scope .body
  | .call scope query => (s.scopes scope).phase = .body ∧ s' = s.beginCall scope query
  | .start id => ∃ t, s.tasks[id]? = some t ∧ t.status = .scheduled ∧ s' = s.startTask id t
  | .finish id outcome => s.statusOf id = some .running ∧ s' = s.setStatus id (.done outcome)
  | .complete id => ∃ t, s.tasks[id]? = some t ∧ t.status.isDone = true ∧ t.completed = false ∧
      s' = s.completeTask id t
  | .resume c => ∃ call awaited outcome, s.calls[c]? = some call ∧ call.state = .waiting awaited ∧
      s.statusOf awaited.id = some (.done outcome) ∧ s' = s.setCall c (outcomeState outcome)
  | .cancel c => ∃ call awaited, s.calls[c]? = some call ∧ call.state = .waiting awaited ∧
      s' = (s.cancelAwaited awaited).setCall c .cancelled
  | .exit scope => (s.scopes scope).phase = .body ∧ s' = s.exitScope scope
  | .close scope => ∃ live, (s.scopes scope).phase = .gathering live ∧
      (∀ id ∈ live, ∀ t, s.tasks[id]? = some t → t.status.isDone = true) ∧
      s' = s.closeScope scope

theorem step_effect {e : AdapterEvent} (h : s.step e = some s') : Effect s s' e := by
  cases e with
  | enter scope =>
    obtain ⟨hfresh, h⟩ := Option.ite_none_right_eq_some.mp h
    exact ⟨hfresh, (Option.some.inj h).symm⟩
  | call scope query =>
    obtain ⟨hbody, h⟩ := Option.ite_none_right_eq_some.mp h
    exact ⟨hbody, (Option.some.inj h).symm⟩
  | start id =>
    simp only [step] at h
    split at h
    · rename_i t ht
      obtain ⟨hstatus, h⟩ := Option.ite_none_right_eq_some.mp h
      exact ⟨t, ht, hstatus, (Option.some.inj h).symm⟩
    · cases h
  | finish id outcome =>
    obtain ⟨hstatus, h⟩ := Option.ite_none_right_eq_some.mp h
    exact ⟨hstatus, (Option.some.inj h).symm⟩
  | complete id =>
    simp only [step] at h
    split at h
    · rename_i t ht
      obtain ⟨hdone, h⟩ := Option.ite_none_right_eq_some.mp h
      rw [Bool.and_eq_true, Bool.not_eq_true'] at hdone
      exact ⟨t, ht, hdone.1, hdone.2, (Option.some.inj h).symm⟩
    · cases h
  | resume c =>
    simp only [step] at h
    split at h
    · rename_i awaited hstate
      obtain ⟨call, hcall, hwaiting⟩ := Option.map_eq_some_iff.mp hstate
      split at h
      · rename_i outcome hstatus
        exact ⟨call, awaited, outcome, hcall, hwaiting, hstatus, (Option.some.inj h).symm⟩
      · cases h
    · cases h
  | cancel c =>
    simp only [step] at h
    split at h
    · rename_i awaited hstate
      obtain ⟨call, hcall, hwaiting⟩ := Option.map_eq_some_iff.mp hstate
      exact ⟨call, awaited, hcall, hwaiting, (Option.some.inj h).symm⟩
    · cases h
  | exit scope =>
    obtain ⟨hbody, h⟩ := Option.ite_none_right_eq_some.mp h
    exact ⟨hbody, (Option.some.inj h).symm⟩
  | close scope =>
    simp only [step] at h
    split at h
    · rename_i live hphase
      obtain ⟨hall, h⟩ := Option.ite_none_right_eq_some.mp h
      refine ⟨live, hphase, fun id hid t ht => ?_, (Option.some.inj h).symm⟩
      have hdone := List.all_eq_true.mp hall id hid
      simpa [statusOf, ht] using hdone
    · cases h

/-! ## Updates of the state -/

theorem getElem?_concat_eq_some {α : Type} {xs : List α} {x y : α} {i : Nat} :
    (xs ++ [x])[i]? = some y ↔ xs[i]? = some y ∨ i = xs.length ∧ y = x := by
  rw [List.getElem?_append]
  by_cases hi : i < xs.length
  · rw [if_pos hi]
    exact (or_iff_left fun h => Nat.ne_of_lt hi h.1).symm
  · have hnone : xs[i]? = none := List.getElem?_eq_none (Nat.le_of_not_lt hi)
    rw [if_neg hi, hnone]
    by_cases heq : i = xs.length
    · subst heq
      simp [eq_comm]
    · have hlast : [x][i - xs.length]? = none := List.getElem?_eq_none (by simp; omega)
      simp [heq, hlast]

@[simp] theorem setPhase_cache (s : AdapterState) (i j : Nat) (phase : ScopePhase) :
    ((s.setPhase i phase).scopes j).cache = (s.scopes j).cache := by
  by_cases h : j = i
  · subst h
    simp [setPhase]
  · simp [setPhase, h]

theorem setPhase_phase (s : AdapterState) (i j : Nat) (phase : ScopePhase) :
    ((s.setPhase i phase).scopes j).phase = if j = i then phase else (s.scopes j).phase := by
  by_cases h : j = i
  · subst h
    simp [setPhase]
  · simp [setPhase, h]

@[simp] theorem updateCache_phase (s : AdapterState) (i j : Nat)
    (f : OrderedDict Texts CacheEntry → OrderedDict Texts CacheEntry) :
    ((s.updateCache i f).scopes j).phase = (s.scopes j).phase := by
  by_cases h : j = i
  · subst h
    simp [updateCache]
  · simp [updateCache, h]

theorem updateCache_cache (s : AdapterState) (i j : Nat)
    (f : OrderedDict Texts CacheEntry → OrderedDict Texts CacheEntry) :
    ((s.updateCache i f).scopes j).cache
      = if j = i then f (s.scopes i).cache else (s.scopes j).cache := by
  by_cases h : j = i
  · subst h
    simp [updateCache]
  · simp [updateCache, h]

@[simp] theorem mem_liveTasks {cache : OrderedDict Texts CacheEntry} {id : Nat} :
    id ∈ liveTasks cache ↔ ∃ texts, cache.get? texts = some (.task id) := by
  rw [← OrderedDict.mem_values, liveTasks, List.mem_filterMap]
  constructor
  · rintro ⟨entry, hentry, h⟩
    cases entry with
    | task id' => exact Option.some.inj h ▸ hentry
    | vectors v => cases h
  · exact fun h => ⟨.task id, h, rfl⟩

/-! ## The invariant -/

/-- A call waits for a task of its scope and its texts, behind a shield, and it
receives what the provider gave for its texts. -/
structure CallOk (s : AdapterState) (call : QueryCall) : Prop where
  waiting : ∀ awaited, call.state = .waiting awaited → ∃ id t, awaited = .shield id ∧
    s.tasks[id]? = some t ∧ t.scope = call.scope ∧ call.query.texts = some t.texts
  received : ∀ vectors, call.state = .received vectors →
    ∃ texts, call.query.texts = some texts ∧ s.Provided call.scope texts vectors

theorem CallOk.grows {call : QueryCall} (h : s.CallOk call) (hs : Grows s s') :
    s'.CallOk call := by
  constructor
  · intro awaited hwaiting
    obtain ⟨id, t, rfl, ht, hscope, htexts⟩ := h.waiting awaited hwaiting
    obtain ⟨t', ht', hfollows⟩ := hs.tasks id t ht
    exact ⟨id, t', rfl, ht', hfollows.scope.trans hscope, by rw [hfollows.texts, htexts]⟩
  · intro vectors hreceived
    obtain ⟨texts, htexts, hprovided⟩ := h.received vectors hreceived
    exact ⟨texts, htexts, hprovided.grows hs⟩

structure Inv (s : AdapterState) : Prop where
  /-- A cached task belongs to the cache and its callback has not run. -/
  cached_task : ∀ scope texts id, (s.scopes scope).cache.get? texts = some (.task id) →
    ∃ t, s.tasks[id]? = some t ∧ t.scope = scope ∧ t.texts = texts ∧ t.completed = false
  /-- Cached vectors come from the provider. -/
  cached_vectors : ∀ scope texts vectors,
    (s.scopes scope).cache.get? texts = some (.vectors vectors) → s.Provided scope texts vectors
  /-- A task that has not ended is cached. -/
  unfinished : ∀ (id : Nat) (t : ProviderTask), s.tasks[id]? = some t →
    t.status.isDone = false → (s.scopes t.scope).cache.get? t.texts = some (.task id)
  /-- A task that runs or has succeeded has called the provider. -/
  submitted : ∀ (id : Nat) (t : ProviderTask), s.tasks[id]? = some t →
    (t.status = .running ∨ ∃ vectors, t.status = .done (.success vectors)) →
    (id, t.texts) ∈ s.submissions
  calls : ∀ call ∈ s.calls, s.CallOk call
  /-- No task of an open scope is asked to cancel. -/
  uncancelled : ∀ (id : Nat) (t : ProviderTask), s.tasks[id]? = some t →
    (s.scopes t.scope).phase = .body → t.cancelRequested = false
  /-- A scope that is not entered has no task. -/
  entered : ∀ (id : Nat) (t : ProviderTask), s.tasks[id]? = some t →
    (s.scopes t.scope).phase ≠ .fresh
  /-- The `gather` of a scope waits for every cached task. -/
  gathering : ∀ scope live, (s.scopes scope).phase = .gathering live →
    ∀ texts id, (s.scopes scope).cache.get? texts = some (.task id) → id ∈ live
  /-- The cache of a closed scope is empty. -/
  closed : ∀ scope, (s.scopes scope).phase = .closed →
    ∀ texts, (s.scopes scope).cache.get? texts = none

theorem inv_init : Inv ({} : AdapterState) := by
  constructor <;> intros <;> simp_all

/-- Only the calls change. -/
theorem Inv.of_calls (h : Inv s) (hscopes : s'.scopes = s.scopes) (htasks : s'.tasks = s.tasks)
    (hsub : s'.submissions = s.submissions) (hcalls : ∀ call ∈ s'.calls, s.CallOk call) :
    Inv s' := by
  have hgrows : Grows s s' :=
    ⟨fun id t ht => ⟨t, htasks ▸ ht, Follows.refl t⟩, fun p hp => hsub ▸ hp⟩
  exact {
    cached_task := by rw [hscopes, htasks]; exact h.cached_task
    cached_vectors := by
      rw [hscopes]
      exact fun scope texts vectors hv => (h.cached_vectors scope texts vectors hv).grows hgrows
    unfinished := by rw [hscopes, htasks]; exact h.unfinished
    submitted := by rw [htasks, hsub]; exact h.submitted
    calls := fun call hcall => (hcalls call hcall).grows hgrows
    uncancelled := by rw [hscopes, htasks]; exact h.uncancelled
    entered := by rw [hscopes, htasks]; exact h.entered
    gathering := by rw [hscopes]; exact h.gathering
    closed := by rw [hscopes]; exact h.closed }

/-- What an event may do to a task, other than running its callback. -/
structure Advances (s : AdapterState) (submissions : List (Nat × Texts)) (id : Nat)
    (t t' : ProviderTask) : Prop extends Follows t t' where
  completed : t'.completed = t.completed
  unfinished : t'.status.isDone = false → t.status.isDone = false
  submitted : (t'.status = .running ∨ ∃ vectors, t'.status = .done (.success vectors)) →
    (id, t.texts) ∈ submissions
  uncancelled : (s.scopes t.scope).phase = .body → t'.cancelRequested = t.cancelRequested

/-- Only one task changes, and the submissions. -/
theorem Inv.of_modify (h : Inv s) {id : Nat} {f : ProviderTask → ProviderTask}
    (hscopes : s'.scopes = s.scopes) (htasks : s'.tasks = s.tasks.modify id f)
    (hcalls : s'.calls = s.calls) (hsub : ∀ p ∈ s.submissions, p ∈ s'.submissions)
    (hf : ∀ t, s.tasks[id]? = some t → Advances s s'.submissions id t (f t)) : Inv s' := by
  have hgrows : Grows s s' := .of_modify htasks hsub fun t ht => (hf t ht).toFollows
  -- each task of `s'` comes from one of `s`
  have hback : ∀ (id' : Nat) (t' : ProviderTask), s'.tasks[id']? = some t' →
      ∃ t, s.tasks[id']? = some t ∧ (t' = t ∧ id ≠ id' ∨ t' = f t ∧ id = id') := by
    intro id' t' ht'
    rw [htasks, List.getElem?_modify, Option.map_eq_map, Option.map_eq_some_iff] at ht'
    obtain ⟨t, ht, heq⟩ := ht'
    by_cases hid : id = id'
    · exact ⟨t, ht, Or.inr ⟨by simpa [hid] using heq.symm, hid⟩⟩
    · exact ⟨t, ht, Or.inl ⟨by simpa [hid] using heq.symm, hid⟩⟩
  exact {
    cached_task := by
      intro scope texts id' hentry
      rw [hscopes] at hentry
      obtain ⟨t, ht, hscope, htexts, hcompleted⟩ := h.cached_task scope texts id' hentry
      obtain ⟨t', ht', hfollows⟩ := hgrows.tasks id' t ht
      refine ⟨t', ht', hfollows.scope.trans hscope, hfollows.texts.trans htexts, ?_⟩
      obtain ⟨t₀, ht₀, ⟨rfl, _⟩ | ⟨rfl, rfl⟩⟩ := hback id' t' ht'
      · rw [Option.some.inj (ht₀.symm.trans ht), hcompleted]
      · rw [(hf t₀ ht₀).completed, Option.some.inj (ht₀.symm.trans ht), hcompleted]
    cached_vectors := by
      rw [hscopes]
      exact fun scope texts vectors hv => (h.cached_vectors scope texts vectors hv).grows hgrows
    unfinished := by
      intro id' t' ht' hdone
      obtain ⟨t, ht, ⟨rfl, _⟩ | ⟨rfl, rfl⟩⟩ := hback id' t' ht'
      · rw [hscopes]
        exact h.unfinished id' t' ht hdone
      · have hadv := hf t ht
        rw [hscopes, hadv.scope, hadv.texts]
        exact h.unfinished id t ht (hadv.unfinished hdone)
    submitted := by
      intro id' t' ht' hstatus
      obtain ⟨t, ht, ⟨rfl, _⟩ | ⟨rfl, rfl⟩⟩ := hback id' t' ht'
      · exact hsub _ (h.submitted id' t' ht hstatus)
      · rw [(hf t ht).texts]
        exact (hf t ht).submitted hstatus
    calls := by
      rw [hcalls]
      exact fun call hcall => (h.calls call hcall).grows hgrows
    uncancelled := by
      intro id' t' ht' hphase
      obtain ⟨t, ht, ⟨rfl, _⟩ | ⟨rfl, rfl⟩⟩ := hback id' t' ht'
      · exact h.uncancelled id' t' ht (hscopes ▸ hphase)
      · have hadv := hf t ht
        rw [hscopes, hadv.scope] at hphase
        rw [hadv.uncancelled hphase]
        exact h.uncancelled id t ht hphase
    entered := by
      intro id' t' ht'
      obtain ⟨t, ht, ⟨rfl, _⟩ | ⟨rfl, rfl⟩⟩ := hback id' t' ht'
      · rw [hscopes]
        exact h.entered id' t' ht
      · rw [hscopes, (hf t ht).scope]
        exact h.entered id t ht
    gathering := by rw [hscopes]; exact h.gathering
    closed := by rw [hscopes]; exact h.closed }

/-! ## Each event keeps the invariant -/

theorem callOk_of_settled {call : QueryCall} (hwaiting : ∀ awaited, call.state ≠ .waiting awaited)
    (hreceived : ∀ vectors, call.state ≠ .received vectors) : s.CallOk call :=
  ⟨fun awaited h => absurd h (hwaiting awaited), fun vectors h => absurd h (hreceived vectors)⟩

/-- A call takes the outcome of a task of its scope. -/
theorem callOk_outcome (h : Inv s) {id : Nat} {t : ProviderTask} (ht : s.tasks[id]? = some t)
    {query : Query} (htexts : query.texts = some t.texts) {outcome : Outcome}
    (hdone : t.status = .done outcome) : s.CallOk ⟨t.scope, query, outcomeState outcome⟩ := by
  cases outcome with
  | success vectors =>
    constructor
    · intro awaited hw
      cases hw
    · intro vectors' hr
      obtain rfl := CallState.received.inj hr
      exact ⟨t.texts, htexts, id, t, ht, rfl, rfl, hdone,
        h.submitted id t ht (Or.inr ⟨vectors, hdone⟩)⟩
  | failure exc => exact callOk_of_settled (by simp [outcomeState]) (by simp [outcomeState])
  | cancelled => exact callOk_of_settled (by simp [outcomeState]) (by simp [outcomeState])

/-- A call awaits the shield of a task of its scope. -/
theorem callOk_await (h : Inv s) {id : Nat} {t : ProviderTask} (ht : s.tasks[id]? = some t)
    {query : Query} (htexts : query.texts = some t.texts) :
    s.CallOk ⟨t.scope, query, s.await (s.shield id)⟩ := by
  have hstatus : s.statusOf id = some t.status := by simp [statusOf, ht]
  by_cases hdone : ∃ outcome, t.status = .done outcome
  · obtain ⟨outcome, hdone⟩ := hdone
    have hawait : s.await (s.shield id) = outcomeState outcome := by
      simp [await, shield, hstatus, hdone, Awaited.id]
    rw [hawait]
    exact callOk_outcome h ht htexts hdone
  · have hawait : s.await (s.shield id) = .waiting (.shield id) := by
      cases hs : t.status with
      | done outcome => exact absurd ⟨outcome, hs⟩ hdone
      | _ => simp [await, shield, hstatus, hs, Awaited.id]
    rw [hawait]
    constructor
    · intro awaited hw
      exact ⟨id, t, (CallState.waiting.inj hw).symm, ht, rfl, htexts⟩
    · intro _ hr
      cases hr

/-- A new task, in a cache that has no entry for its texts. -/
theorem Inv.createTask (h : Inv s) {scope : Nat} {texts : Texts}
    (hphase : (s.scopes scope).phase = .body)
    (hnone : (s.scopes scope).cache.get? texts = none) : Inv (s.createTask scope texts) := by
  have htasks (id : Nat) (t : ProviderTask) : (s.createTask scope texts).tasks[id]? = some t ↔
      s.tasks[id]? = some t ∨ id = s.tasks.length ∧ t = { scope := scope, texts := texts } := by
    show (s.tasks ++ [_])[id]? = some t ↔ _
    exact getElem?_concat_eq_some
  have hgrows : Grows s (s.createTask scope texts) :=
    ⟨fun id t ht => ⟨t, (htasks id t).mpr (Or.inl ht), Follows.refl t⟩, fun _ => id⟩
  have hphases (i : Nat) : ((s.createTask scope texts).scopes i).phase = (s.scopes i).phase := by
    rw [AdapterState.createTask, updateCache_phase]
  have hcache (i : Nat) (k : Texts) : ((s.createTask scope texts).scopes i).cache.get? k
      = if i = scope ∧ k = texts then some (.task s.tasks.length)
        else (s.scopes i).cache.get? k := by
    rw [AdapterState.createTask, updateCache_cache]
    by_cases hi : i = scope
    · subst hi
      by_cases hk : k = texts <;> simp [hk]
    · simp [hi]
  exact {
    cached_task := by
      intro i k id hentry
      rw [hcache] at hentry
      split at hentry
      · rename_i heq
        obtain ⟨rfl, rfl⟩ := heq
        obtain rfl := CacheEntry.task.inj (Option.some.inj hentry)
        exact ⟨_, (htasks _ _).mpr (Or.inr ⟨rfl, rfl⟩), rfl, rfl, rfl⟩
      · obtain ⟨t, ht, hrest⟩ := h.cached_task i k id hentry
        exact ⟨t, (htasks id t).mpr (Or.inl ht), hrest⟩
    cached_vectors := by
      intro i k vectors hentry
      rw [hcache] at hentry
      split at hentry
      · cases hentry
      · exact (h.cached_vectors i k vectors hentry).grows hgrows
    unfinished := by
      intro id t ht hdone
      rw [hcache]
      rcases (htasks id t).mp ht with ht | ⟨rfl, rfl⟩
      · have hentry := h.unfinished id t ht hdone
        rw [if_neg, hentry]
        rintro ⟨hscope, htexts⟩
        rw [hscope, htexts, hnone] at hentry
        cases hentry
      · rw [if_pos ⟨rfl, rfl⟩]
    submitted := by
      intro id t ht hstatus
      rcases (htasks id t).mp ht with ht | ⟨rfl, rfl⟩
      · exact h.submitted id t ht hstatus
      · rcases hstatus with hstatus | ⟨_, hstatus⟩ <;> cases hstatus
    calls := fun call hcall => (h.calls call hcall).grows hgrows
    uncancelled := by
      intro id t ht hbody
      rw [hphases] at hbody
      rcases (htasks id t).mp ht with ht | ⟨rfl, rfl⟩
      · exact h.uncancelled id t ht hbody
      · rfl
    entered := by
      intro id t ht
      rw [hphases]
      rcases (htasks id t).mp ht with ht | ⟨rfl, rfl⟩
      · exact h.entered id t ht
      · simp [hphase]
    gathering := by
      intro i live hgathering k id hentry
      rw [hphases] at hgathering
      rw [hcache, if_neg] at hentry
      · exact h.gathering i live hgathering k id hentry
      · rintro ⟨rfl, _⟩
        rw [hphase] at hgathering
        cases hgathering
    closed := by
      intro i hover k
      rw [hphases] at hover
      rw [hcache, if_neg]
      · exact h.closed i hover k
      · rintro ⟨rfl, _⟩
        rw [hphase] at hover
        cases hover }

theorem Inv.beginCall (h : Inv s) {scope : Nat} (hphase : (s.scopes scope).phase = .body)
    (query : Query) : Inv (s.beginCall scope query) := by
  have hadd {s₁ : AdapterState} (h₁ : Inv s₁) {state : CallState}
      (hcall : s₁.CallOk ⟨scope, query, state⟩) :
      Inv { s₁ with calls := s₁.calls ++ [⟨scope, query, state⟩] } := by
    refine h₁.of_calls rfl rfl rfl fun call hmem => ?_
    rcases List.mem_append.mp hmem with hmem | hmem
    · exact h₁.calls call hmem
    · rw [List.mem_singleton.mp hmem]
      exact hcall
  unfold AdapterState.beginCall
  cases htexts : query.texts with
  | none => exact hadd h (callOk_of_settled (by simp) (by simp))
  | some texts =>
    unfold embedQuery
    dsimp only
    cases hentry : (s.scopes scope).cache.get? texts with
    | none =>
      have hnew := h.createTask hphase hentry
      have hget : (s.createTask scope texts).tasks[s.tasks.length]?
          = some { scope := scope, texts := texts } := by
        show (s.tasks ++ [_])[s.tasks.length]? = _
        simp
      exact hadd hnew (callOk_await hnew hget htexts)
    | some entry =>
      cases entry with
      | vectors vectors =>
        refine hadd h ⟨fun _ hw => (by cases hw), fun vectors' hr => ?_⟩
        obtain rfl := CallState.received.inj hr
        exact ⟨texts, htexts, h.cached_vectors scope texts vectors hentry⟩
      | task id =>
        obtain ⟨t, ht, rfl, rfl, _⟩ := h.cached_task scope texts id hentry
        exact hadd h (callOk_await h ht htexts)

/-- The phase of a scope changes, and its cache stays. -/
theorem Inv.setPhase (h : Inv s) {scope : Nat} {phase : ScopePhase} (hfresh : phase ≠ .fresh)
    (hbody : phase = .body → (s.scopes scope).phase = .fresh)
    (hlive : ∀ live, phase = .gathering live →
      ∀ texts id, (s.scopes scope).cache.get? texts = some (.task id) → id ∈ live)
    (hover : phase = .closed → ∀ texts, (s.scopes scope).cache.get? texts = none) :
    Inv (s.setPhase scope phase) := by
  have hgrows : Grows s (s.setPhase scope phase) :=
    ⟨fun id t ht => ⟨t, ht, Follows.refl t⟩, fun _ => id⟩
  exact {
    cached_task := by
      intro i texts id hentry
      rw [setPhase_cache] at hentry
      exact h.cached_task i texts id hentry
    cached_vectors := by
      intro i texts vectors hentry
      rw [setPhase_cache] at hentry
      exact (h.cached_vectors i texts vectors hentry).grows hgrows
    unfinished := by
      intro id t ht hdone
      rw [setPhase_cache]
      exact h.unfinished id t ht hdone
    submitted := h.submitted
    calls := fun call hcall => (h.calls call hcall).grows hgrows
    uncancelled := by
      intro id t ht hphase
      rw [setPhase_phase] at hphase
      split at hphase
      · rename_i heq
        exact absurd (heq ▸ hbody hphase) (h.entered id t ht)
      · exact h.uncancelled id t ht hphase
    entered := by
      intro id t ht
      rw [setPhase_phase]
      split
      · exact hfresh
      · exact h.entered id t ht
    gathering := by
      intro i live hphase texts id hentry
      rw [setPhase_cache] at hentry
      rw [setPhase_phase] at hphase
      split at hphase
      · rename_i heq
        exact hlive live hphase texts id (heq ▸ hentry)
      · exact h.gathering i live hphase texts id hentry
    closed := by
      intro i hphase texts
      rw [setPhase_cache]
      rw [setPhase_phase] at hphase
      split at hphase
      · rename_i heq
        exact heq ▸ hover hphase texts
      · exact h.closed i hphase texts }

theorem Inv.startTask (h : Inv s) {id : Nat} {t : ProviderTask} (ht : s.tasks[id]? = some t)
    (hstatus : t.status = .scheduled) : Inv (s.startTask id t) := by
  unfold AdapterState.startTask
  split
  · refine h.of_modify rfl rfl rfl (fun _ hp => hp) fun t' ht' => ?_
    obtain rfl := Option.some.inj (ht.symm.trans ht')
    exact ⟨⟨rfl, rfl, by simp [hstatus]⟩, rfl, by simp [TaskStatus.isDone], by simp, fun _ => rfl⟩
  · refine h.of_modify rfl rfl rfl (fun _ => List.mem_append_left _) fun t' ht' => ?_
    obtain rfl := Option.some.inj (ht.symm.trans ht')
    exact ⟨⟨rfl, rfl, by simp [hstatus]⟩, rfl, by simp [hstatus, TaskStatus.isDone],
      fun _ => List.mem_append_right _ (List.mem_singleton_self _), fun _ => rfl⟩

theorem Inv.finishTask (h : Inv s) {id : Nat} (hstatus : s.statusOf id = some .running)
    (outcome : Outcome) : Inv (s.setStatus id (.done outcome)) := by
  refine h.of_modify rfl rfl rfl (fun _ hp => hp) fun t ht => ?_
  have hrunning : t.status = .running := by simpa [statusOf, ht] using hstatus
  exact ⟨⟨rfl, rfl, by simp [hrunning]⟩, rfl, by simp [TaskStatus.isDone],
    fun _ => h.submitted id t ht (Or.inl hrunning), fun _ => rfl⟩

theorem Inv.cancelTask (h : Inv s) {id : Nat}
    (hphase : ∀ t, s.tasks[id]? = some t → (s.scopes t.scope).phase ≠ .body) :
    Inv (s.cancelTask id) := by
  refine h.of_modify rfl rfl rfl (fun _ hp => hp) fun t ht => ?_
  split
  · exact ⟨Follows.refl t, rfl, fun hdone => hdone, h.submitted id t ht, fun _ => rfl⟩
  · exact ⟨⟨rfl, rfl, fun _ hdone => hdone⟩, rfl, fun hdone => hdone, h.submitted id t ht,
      fun hbody => absurd hbody (hphase t ht)⟩

/-- The callback of a task has run: its entry is gone or holds its vectors, and
the other entries are the same. -/
structure Settles (s s' : AdapterState) (id : Nat) (t : ProviderTask) : Prop where
  tasks : s'.tasks = s.tasks.modify id fun t => { t with completed := true }
  calls : s'.calls = s.calls
  submissions : s'.submissions = s.submissions
  phases : ∀ i, (s'.scopes i).phase = (s.scopes i).phase
  entries : ∀ i texts, (i ≠ t.scope ∨ texts ≠ t.texts) →
    (s'.scopes i).cache.get? texts = (s.scopes i).cache.get? texts
  entry : (s.scopes t.scope).cache.get? t.texts ≠ some (.task id) ∧
      (s'.scopes t.scope).cache.get? t.texts = (s.scopes t.scope).cache.get? t.texts ∨
    (s.scopes t.scope).cache.get? t.texts = some (.task id) ∧
      ((s'.scopes t.scope).cache.get? t.texts = none ∨
        ∃ vectors, (s'.scopes t.scope).cache.get? t.texts = some (.vectors vectors) ∧
          t.status = .done (.success vectors))

theorem completeTask_settles (s : AdapterState) {id : Nat} {t : ProviderTask} :
    Settles s (s.completeTask id t) id t := by
  unfold completeTask
  dsimp only
  split
  · rename_i hentry
    have herased : Settles s (updateCache { s with
        tasks := s.tasks.modify id fun t => { t with completed := true } } t.scope
        (·.erase t.texts)) id t := by
      refine ⟨rfl, rfl, rfl, fun i => updateCache_phase _ _ _ _, fun i texts hne => ?_,
        Or.inr ⟨hentry, Or.inl ?_⟩⟩
      · rw [updateCache_cache]
        split
        · rename_i heq
          subst heq
          rw [OrderedDict.get?_erase, if_neg (hne.resolve_left fun h => h rfl)]
        · rfl
      · rw [updateCache_cache, if_pos rfl, OrderedDict.get?_erase, if_pos rfl]
    cases hstatus : t.status with
    | done outcome =>
      cases outcome with
      | success vectors =>
        refine ⟨rfl, rfl, rfl, fun i => updateCache_phase _ _ _ _, fun i texts hne => ?_,
          Or.inr ⟨hentry, Or.inr ⟨vectors, ?_, hstatus⟩⟩⟩
        · rw [updateCache_cache]
          split
          · rename_i heq
            subst heq
            rw [OrderedDict.get?_set, if_neg (hne.resolve_left fun h => h rfl)]
          · rfl
        · rw [updateCache_cache, if_pos rfl, OrderedDict.get?_set, if_pos rfl]
      | failure exc => exact herased
      | cancelled => exact herased
    | scheduled => exact herased
    | running => exact herased
  · rename_i hentry
    exact ⟨rfl, rfl, rfl, fun _ => rfl, fun _ _ _ => rfl, Or.inl ⟨hentry, rfl⟩⟩

/-- An entry is as it was, or it was that of the task and holds its vectors at most. -/
theorem Settles.entry_cases {id : Nat} {t : ProviderTask} (hs : Settles s s' id t) (i : Nat)
    (texts : Texts) :
    (s'.scopes i).cache.get? texts = (s.scopes i).cache.get? texts ∧
        (i = t.scope → texts = t.texts → (s.scopes i).cache.get? texts ≠ some (.task id)) ∨
      i = t.scope ∧ texts = t.texts ∧ (s.scopes i).cache.get? texts = some (.task id) ∧
        ((s'.scopes i).cache.get? texts = none ∨
          ∃ vectors, (s'.scopes i).cache.get? texts = some (.vectors vectors) ∧
            t.status = .done (.success vectors)) := by
  by_cases hne : i ≠ t.scope ∨ texts ≠ t.texts
  · exact .inl ⟨hs.entries i texts hne, fun hi htexts => (hne.elim (· hi) (· htexts)).elim⟩
  · rw [not_or, not_not, not_not] at hne
    obtain ⟨rfl, rfl⟩ := hne
    obtain ⟨hother, heq⟩ | ⟨hsame, hleft⟩ := hs.entry
    · exact .inl ⟨heq, fun _ _ => hother⟩
    · exact .inr ⟨rfl, rfl, hsame, hleft⟩

/-- Each task is one from before, the task `id` with its callback run. -/
theorem Settles.task_before {id id' : Nat} {t t' : ProviderTask} (hs : Settles s s' id t)
    (ht' : s'.tasks[id']? = some t') :
    ∃ t₀, s.tasks[id']? = some t₀ ∧ t'.scope = t₀.scope ∧ t'.texts = t₀.texts ∧
      t'.status = t₀.status ∧ t'.cancelRequested = t₀.cancelRequested := by
  rw [hs.tasks, List.getElem?_modify, Option.map_eq_map, Option.map_eq_some_iff] at ht'
  obtain ⟨t₀, ht₀, rfl⟩ := ht'
  refine ⟨t₀, ht₀, ?_⟩
  split <;> exact ⟨rfl, rfl, rfl, rfl⟩

/-- An entry that still awaits a task awaits another one. -/
theorem Inv.awaits_of_settles (h : Inv s) {id id' i : Nat} {t : ProviderTask} {texts : Texts}
    (ht : s.tasks[id]? = some t) (hs : Settles s s' id t)
    (hentry : (s'.scopes i).cache.get? texts = some (.task id')) :
    (s.scopes i).cache.get? texts = some (.task id') ∧ id' ≠ id := by
  obtain ⟨heq, hother⟩ | ⟨_, _, _, hnone | ⟨vectors, hvectors, _⟩⟩ := hs.entry_cases i texts
  · rw [heq] at hentry
    refine ⟨hentry, ?_⟩
    rintro rfl
    obtain ⟨t₀, ht₀, hscope, htexts, _⟩ := h.cached_task i texts id' hentry
    obtain rfl := Option.some.inj (ht.symm.trans ht₀)
    exact hother hscope.symm htexts.symm hentry
  · rw [hnone] at hentry
    cases hentry
  · rw [hvectors] at hentry
    cases hentry

theorem Inv.settles (h : Inv s) {id : Nat} {t : ProviderTask} (ht : s.tasks[id]? = some t)
    (hdone : t.status.isDone = true) (hs : Settles s s' id t) : Inv s' := by
  have hgrows : Grows s s' := .of_modify hs.tasks (fun p hp => hs.submissions ▸ hp)
    fun _ _ => ⟨rfl, rfl, fun _ hd => hd⟩
  exact {
    cached_task := by
      intro i texts id' hentry
      obtain ⟨hentry, hne⟩ := h.awaits_of_settles ht hs hentry
      obtain ⟨t₀, ht₀, hrest⟩ := h.cached_task i texts id' hentry
      refine ⟨t₀, ?_, hrest⟩
      rw [hs.tasks, List.getElem?_modify, ht₀]
      simp [hne.symm]
    cached_vectors := by
      intro i texts vectors hentry
      obtain ⟨heq, _⟩ | ⟨rfl, rfl, _, hnone | ⟨vectors', hvectors, hstatus⟩⟩ :=
        hs.entry_cases i texts
      · rw [heq] at hentry
        exact (h.cached_vectors i texts vectors hentry).grows hgrows
      · rw [hnone] at hentry
        cases hentry
      · rw [hvectors] at hentry
        obtain rfl := CacheEntry.vectors.inj (Option.some.inj hentry)
        exact Provided.grows ⟨id, t, ht, rfl, rfl, hstatus,
          h.submitted id t ht (Or.inr ⟨vectors', hstatus⟩)⟩ hgrows
    unfinished := by
      intro id' t' ht' hunfinished
      obtain ⟨t₀, ht₀, hscope, htexts, hstatus, _⟩ := hs.task_before ht'
      rw [hstatus] at hunfinished
      have hentry := h.unfinished id' t₀ ht₀ hunfinished
      rw [hscope, htexts]
      obtain ⟨heq, _⟩ | ⟨_, _, hsame, _⟩ := hs.entry_cases t₀.scope t₀.texts
      · rw [heq, hentry]
      · -- the task `id` has ended
        rw [hentry] at hsame
        obtain rfl := CacheEntry.task.inj (Option.some.inj hsame)
        rw [Option.some.inj (ht₀.symm.trans ht), hdone] at hunfinished
        cases hunfinished
    submitted := by
      intro id' t' ht' hstatus'
      obtain ⟨t₀, ht₀, _, htexts, hstatus, _⟩ := hs.task_before ht'
      rw [htexts, hs.submissions]
      exact h.submitted id' t₀ ht₀ (hstatus ▸ hstatus')
    calls := by
      rw [hs.calls]
      exact fun call hcall => (h.calls call hcall).grows hgrows
    uncancelled := by
      intro id' t' ht' hbody
      obtain ⟨t₀, ht₀, hscope, _, _, hrequested⟩ := hs.task_before ht'
      rw [hs.phases, hscope] at hbody
      rw [hrequested]
      exact h.uncancelled id' t₀ ht₀ hbody
    entered := by
      intro id' t' ht'
      obtain ⟨t₀, ht₀, hscope, _⟩ := hs.task_before ht'
      rw [hs.phases, hscope]
      exact h.entered id' t₀ ht₀
    gathering := by
      intro i live hphase texts id' hentry
      rw [hs.phases] at hphase
      exact h.gathering i live hphase texts id' (h.awaits_of_settles ht hs hentry).1
    closed := by
      intro i hphase texts
      rw [hs.phases] at hphase
      have hnone := h.closed i hphase texts
      obtain ⟨heq, _⟩ | ⟨_, _, hsame, _⟩ := hs.entry_cases i texts
      · rw [heq, hnone]
      · rw [hnone] at hsame
        cases hsame }

theorem Inv.setCall (h : Inv s) {c : Nat} {state : CallState}
    (hcall : ∀ call, s.calls[c]? = some call → s.CallOk { call with state := state }) :
    Inv (s.setCall c state) := by
  refine h.of_calls rfl rfl rfl fun call hmem => ?_
  obtain ⟨c', hc'⟩ := List.getElem?_of_mem hmem
  change (s.calls.modify c _)[c']? = some call at hc'
  rw [List.getElem?_modify, Option.map_eq_map, Option.map_eq_some_iff] at hc'
  obtain ⟨call₀, hcall₀, rfl⟩ := hc'
  split
  · rename_i heq
    subst heq
    exact hcall call₀ hcall₀
  · exact h.calls call₀ (List.mem_of_getElem? hcall₀)

/-- Cancelling tasks and moving a scope on commute. -/
theorem foldl_cancelTask_setPhase (s : AdapterState) (live : List Nat) (scope : Nat)
    (phase : ScopePhase) :
    (live.foldl AdapterState.cancelTask s).setPhase scope phase
      = live.foldl AdapterState.cancelTask (s.setPhase scope phase) := by
  induction live generalizing s with
  | nil => rfl
  | cons id live ih => exact ih (s.cancelTask id)

theorem Inv.cancelTasks (h : Inv s) {live : List Nat}
    (hlive : ∀ id ∈ live, ∀ t, s.tasks[id]? = some t → (s.scopes t.scope).phase ≠ .body) :
    Inv (live.foldl AdapterState.cancelTask s) := by
  induction live generalizing s with
  | nil => exact h
  | cons id live ih =>
    obtain ⟨hid, hlive⟩ := List.forall_mem_cons.mp hlive
    refine ih (h.cancelTask hid) fun id' hmem t ht => ?_
    change (s.tasks.modify id _)[id']? = some t at ht
    rw [List.getElem?_modify, Option.map_eq_map, Option.map_eq_some_iff] at ht
    obtain ⟨t₀, ht₀, rfl⟩ := ht
    have hphase := hlive id' hmem t₀ ht₀
    split
    · split <;> exact hphase
    · exact hphase

theorem Inv.exitScope (h : Inv s) (scope : Nat) : Inv (s.exitScope scope) := by
  unfold AdapterState.exitScope
  dsimp only
  rw [foldl_cancelTask_setPhase]
  have hgathering :
      Inv (s.setPhase scope (.gathering (liveTasks (s.scopes scope).cache))) := by
    refine h.setPhase (by simp) (by simp) (fun live hlive texts id hentry => ?_) (by simp)
    rw [← ScopePhase.gathering.inj hlive]
    exact mem_liveTasks.mpr ⟨texts, hentry⟩
  refine hgathering.cancelTasks fun id hid t ht => ?_
  obtain ⟨texts, hentry⟩ := mem_liveTasks.mp hid
  obtain ⟨t₀, ht₀, hscope, _⟩ := h.cached_task scope texts id hentry
  obtain rfl := Option.some.inj (ht₀.symm.trans ht)
  rw [setPhase_phase, if_pos hscope]
  simp

/-- An emptied cache whose tasks have all ended. -/
theorem Inv.clear (h : Inv s) {scope : Nat}
    (hdone : ∀ (id : Nat) (t : ProviderTask), s.tasks[id]? = some t → t.scope = scope →
      t.status.isDone = true) : Inv (s.updateCache scope fun _ => .empty) := by
  have hgrows : Grows s (s.updateCache scope fun _ => .empty) :=
    ⟨fun id t ht => ⟨t, ht, Follows.refl t⟩, fun _ hp => hp⟩
  have hkept {i : Nat} {texts : Texts} {entry : CacheEntry}
      (hentry : ((s.updateCache scope fun _ => .empty).scopes i).cache.get? texts = some entry) :
      (s.scopes i).cache.get? texts = some entry := by
    rw [updateCache_cache] at hentry
    split at hentry
    · cases hentry
    · exact hentry
  exact {
    cached_task := fun i texts id hentry => h.cached_task i texts id (hkept hentry)
    cached_vectors := fun i texts vectors hentry =>
      (h.cached_vectors i texts vectors (hkept hentry)).grows hgrows
    unfinished := by
      intro id t ht hunfinished
      rw [updateCache_cache, if_neg]
      · exact h.unfinished id t ht hunfinished
      · intro hscope
        rw [hdone id t ht hscope] at hunfinished
        cases hunfinished
    submitted := h.submitted
    calls := fun call hcall => (h.calls call hcall).grows hgrows
    uncancelled := by
      intro id t ht hbody
      rw [updateCache_phase] at hbody
      exact h.uncancelled id t ht hbody
    entered := by
      intro id t ht
      rw [updateCache_phase]
      exact h.entered id t ht
    gathering := by
      intro i live hphase texts id hentry
      rw [updateCache_phase] at hphase
      exact h.gathering i live hphase texts id (hkept hentry)
    closed := by
      intro i hphase texts
      rw [updateCache_phase] at hphase
      rw [updateCache_cache]
      split
      · rfl
      · exact h.closed i hphase texts }

theorem Inv.closeScope (h : Inv s) {scope : Nat} {live : List Nat}
    (hphase : (s.scopes scope).phase = .gathering live)
    (hlive : ∀ id ∈ live, ∀ t, s.tasks[id]? = some t → t.status.isDone = true) :
    Inv (s.closeScope scope) := by
  have hclear : Inv (s.updateCache scope fun _ => .empty) := by
    refine h.clear fun id t ht hscope => ?_
    by_contra hunfinished
    have hentry := h.unfinished id t ht (Bool.eq_false_iff.mpr hunfinished)
    rw [hscope] at hentry
    exact hunfinished (hlive id (h.gathering scope live hphase t.texts id hentry) t ht)
  refine hclear.setPhase (by simp) (by simp) (by simp) fun _ texts => ?_
  rw [updateCache_cache, if_pos rfl]
  rfl

/-- Every event keeps the invariant. -/
theorem Inv.step {e : AdapterEvent} (h : Inv s) (hstep : s.step e = some s') : Inv s' := by
  have heffect := step_effect hstep
  cases e with
  | enter scope =>
    obtain ⟨hfresh, rfl⟩ := heffect
    exact h.setPhase (by simp) (fun _ => hfresh) (by simp) (by simp)
  | call scope query =>
    obtain ⟨hbody, rfl⟩ := heffect
    exact h.beginCall hbody query
  | start id =>
    obtain ⟨t, ht, hstatus, rfl⟩ := heffect
    exact h.startTask ht hstatus
  | finish id outcome =>
    obtain ⟨hstatus, rfl⟩ := heffect
    exact h.finishTask hstatus outcome
  | complete id =>
    obtain ⟨t, ht, hdone, _, rfl⟩ := heffect
    exact h.settles ht hdone (completeTask_settles s)
  | resume c =>
    obtain ⟨call, awaited, outcome, hcall, hwaiting, hstatus, rfl⟩ := heffect
    obtain ⟨id, t, rfl, ht, hscope, htexts⟩ :=
      (h.calls call (List.mem_of_getElem? hcall)).waiting awaited hwaiting
    refine h.setCall fun call' hcall' => ?_
    obtain rfl := Option.some.inj (hcall.symm.trans hcall')
    have hdone : t.status = .done outcome := by simpa [statusOf, ht, Awaited.id] using hstatus
    have hok := callOk_outcome h ht htexts hdone
    rwa [hscope] at hok
  | cancel c =>
    obtain ⟨call, awaited, hcall, hwaiting, rfl⟩ := heffect
    obtain ⟨id, t, rfl, _⟩ := (h.calls call (List.mem_of_getElem? hcall)).waiting awaited hwaiting
    exact h.setCall fun call' _ => callOk_of_settled (by simp) (by simp)
  | exit scope =>
    obtain ⟨_, rfl⟩ := heffect
    exact h.exitScope scope
  | close scope =>
    obtain ⟨live, hphase, hlive, rfl⟩ := heffect
    exact h.closeScope hphase hlive

end AdapterState

theorem inv_of_reachable {s : AdapterState} (h : queryEmbedding.Reachable s) : s.Inv :=
  h.invariant AdapterState.inv_init AdapterState.Inv.step

namespace AdapterState

variable {s s' : AdapterState}

/-! ## Events of other scopes -/

/-- The scope of an event. -/
def scopeOf (s : AdapterState) : AdapterEvent → Option Nat
  | .enter scope | .call scope _ | .exit scope | .close scope => some scope
  | .start id | .finish id _ | .complete id => (s.tasks[id]?).map ProviderTask.scope
  | .resume c | .cancel c => (s.calls[c]?).map QueryCall.scope

/-- The scope `i` and its tasks are the same. -/
structure SameIn (i : Nat) (s s' : AdapterState) : Prop where
  scope : s'.scopes i = s.scopes i
  tasks : ∀ (id : Nat) (t : ProviderTask), t.scope = i →
    (s'.tasks[id]? = some t ↔ s.tasks[id]? = some t)

theorem SameIn.trans {i : Nat} {s₁ s₂ s₃ : AdapterState} (h : SameIn i s₁ s₂)
    (h' : SameIn i s₂ s₃) : SameIn i s₁ s₃ :=
  ⟨h'.scope.trans h.scope, fun id t ht => (h'.tasks id t ht).trans (h.tasks id t ht)⟩

theorem sameIn_of_scopes {i : Nat} (hscope : s'.scopes i = s.scopes i)
    (htasks : s'.tasks = s.tasks) : SameIn i s s' :=
  ⟨hscope, fun id t _ => by rw [htasks]⟩

theorem sameIn_of_modify {i id : Nat} {f : ProviderTask → ProviderTask}
    (hscope : s'.scopes i = s.scopes i) (htasks : s'.tasks = s.tasks.modify id f)
    (hf : ∀ t, (f t).scope = t.scope)
    (hid : ∀ t, s.tasks[id]? = some t → t.scope ≠ i) : SameIn i s s' := by
  refine ⟨hscope, fun id' t ht => ?_⟩
  rw [htasks, List.getElem?_modify, Option.map_eq_map, Option.map_eq_some_iff]
  by_cases heq : id = id'
  · subst heq
    constructor
    · rintro ⟨t₀, ht₀, rfl⟩
      rw [if_pos rfl, hf] at ht
      exact absurd ht (hid t₀ ht₀)
    · exact fun ht' => absurd ht (hid t ht')
  · simp [heq]

theorem updateCache_scopes_of_ne {i j : Nat} (h : j ≠ i)
    (f : OrderedDict Texts CacheEntry → OrderedDict Texts CacheEntry) :
    (s.updateCache i f).scopes j = s.scopes j := by
  simp [updateCache, h]

theorem setPhase_scopes_of_ne {i j : Nat} (h : j ≠ i) (phase : ScopePhase) :
    (s.setPhase i phase).scopes j = s.scopes j := by
  simp [setPhase, h]

theorem sameIn_createTask {i scope : Nat} (h : i ≠ scope) (texts : Texts) :
    SameIn i s (s.createTask scope texts) := by
  unfold createTask
  refine ⟨updateCache_scopes_of_ne h _, fun id t ht => ?_⟩
  show (s.tasks ++ [_])[id]? = some t ↔ _
  rw [getElem?_concat_eq_some]
  refine or_iff_left fun hnew => ?_
  rw [hnew.2] at ht
  exact h ht.symm

theorem sameIn_embedQuery {i scope : Nat} (h : i ≠ scope) (texts : Texts) :
    SameIn i s (s.embedQuery scope texts).1 := by
  unfold embedQuery
  split
  · exact sameIn_of_scopes rfl rfl
  · exact sameIn_of_scopes rfl rfl
  · exact sameIn_createTask h texts

theorem sameIn_beginCall {i scope : Nat} (h : i ≠ scope) (query : Query) :
    SameIn i s (s.beginCall scope query) := by
  unfold beginCall
  cases query.texts with
  | none => exact sameIn_of_scopes rfl rfl
  | some texts => exact (sameIn_embedQuery h texts).trans (sameIn_of_scopes rfl rfl)

theorem sameIn_cancelTasks {i : Nat} {live : List Nat}
    (hlive : ∀ id ∈ live, ∀ t, s.tasks[id]? = some t → t.scope ≠ i) :
    SameIn i s (live.foldl cancelTask s) := by
  induction live generalizing s with
  | nil => exact sameIn_of_scopes rfl rfl
  | cons id live ih =>
    obtain ⟨hid, hlive⟩ := List.forall_mem_cons.mp hlive
    have hfirst : SameIn i s (s.cancelTask id) :=
      sameIn_of_modify rfl rfl (fun t => by split <;> rfl) hid
    refine hfirst.trans (ih fun id' hmem t ht hscope => ?_)
    exact hlive id' hmem t ((hfirst.tasks id' t hscope).mp ht) hscope

/-- An event of one scope leaves the others alone. -/
theorem Inv.sameIn (h : Inv s) {e : AdapterEvent} (hstep : s.step e = some s') {i : Nat}
    (hi : s.scopeOf e ≠ some i) : SameIn i s s' := by
  have heffect := step_effect hstep
  cases e with
  | enter scope =>
    obtain ⟨_, rfl⟩ := heffect
    exact sameIn_of_scopes (setPhase_scopes_of_ne (fun heq => hi (congrArg some heq.symm)) _) rfl
  | call scope query =>
    obtain ⟨_, rfl⟩ := heffect
    exact sameIn_beginCall (fun heq => hi (congrArg some heq.symm)) query
  | start id =>
    obtain ⟨t, ht, _, rfl⟩ := heffect
    have hne : ∀ t', s.tasks[id]? = some t' → t'.scope ≠ i := by
      rintro t' ht' rfl
      exact hi (by simp [scopeOf, ht'])
    unfold AdapterState.startTask
    split
    · exact sameIn_of_modify rfl rfl (fun _ => rfl) hne
    · exact sameIn_of_modify rfl rfl (fun _ => rfl) hne
  | finish id outcome =>
    obtain ⟨_, rfl⟩ := heffect
    refine sameIn_of_modify rfl rfl (fun _ => rfl) ?_
    rintro t' ht' rfl
    exact hi (by simp [scopeOf, ht'])
  | complete id =>
    obtain ⟨t, ht, _, _, rfl⟩ := heffect
    have hne : i ≠ t.scope := by
      rintro rfl
      exact hi (by simp [scopeOf, ht])
    have hmarked : SameIn i s
        { s with tasks := s.tasks.modify id fun t => { t with completed := true } } := by
      refine sameIn_of_modify rfl rfl (fun _ => rfl) ?_
      rintro t' ht' rfl
      exact hi (by simp [scopeOf, ht'])
    unfold AdapterState.completeTask
    dsimp only
    split
    · split
      · exact hmarked.trans (sameIn_of_scopes (updateCache_scopes_of_ne hne _) rfl)
      · exact hmarked.trans (sameIn_of_scopes (updateCache_scopes_of_ne hne _) rfl)
    · exact hmarked
  | resume c =>
    obtain ⟨_, _, _, _, _, _, rfl⟩ := heffect
    exact sameIn_of_scopes rfl rfl
  | cancel c =>
    obtain ⟨call, awaited, hcall, hwaiting, rfl⟩ := heffect
    obtain ⟨id, t, rfl, _⟩ := (h.calls call (List.mem_of_getElem? hcall)).waiting awaited hwaiting
    exact sameIn_of_scopes rfl rfl
  | exit scope =>
    obtain ⟨_, rfl⟩ := heffect
    have hne : i ≠ scope := fun heq => hi (congrArg some heq.symm)
    have hlive :
        SameIn i s ((liveTasks (s.scopes scope).cache).foldl AdapterState.cancelTask s) := by
      refine sameIn_cancelTasks fun id hid t ht hscope => ?_
      obtain ⟨texts, hentry⟩ := mem_liveTasks.mp hid
      obtain ⟨t₀, ht₀, hscope₀, _⟩ := h.cached_task scope texts id hentry
      rw [Option.some.inj (ht₀.symm.trans ht)] at hscope₀
      exact hne (hscope.symm.trans hscope₀)
    exact hlive.trans (sameIn_of_scopes (setPhase_scopes_of_ne hne _) rfl)
  | close scope =>
    obtain ⟨_, _, _, rfl⟩ := heffect
    have hne : i ≠ scope := fun heq => hi (congrArg some heq.symm)
    refine sameIn_of_scopes ?_ rfl
    exact (setPhase_scopes_of_ne hne _).trans (updateCache_scopes_of_ne hne _)

/-! ## Single flight -/

/-- What holds of every state of the adapter. -/
structure SingleFlight (s : AdapterState) : Prop where
  /-- Two tasks for the same texts in a scope that have not ended are one. -/
  one_unfinished : ∀ (id id' : Nat) (t t' : ProviderTask), s.tasks[id]? = some t →
    s.tasks[id']? = some t' → t.status.isDone = false → t'.status.isDone = false →
    t.scope = t'.scope → t.texts = t'.texts → id = id'
  /-- A call receives what the provider gave for its texts in its scope. -/
  own_result : ∀ call ∈ s.calls, ∀ vectors, call.state = .received vectors →
    ∃ texts, call.query.texts = some texts ∧ s.Provided call.scope texts vectors
  /-- A call waits for a task of its scope and its texts. -/
  own_task : ∀ call ∈ s.calls, ∀ awaited, call.state = .waiting awaited →
    ∃ t, s.tasks[awaited.id]? = some t ∧ t.scope = call.scope ∧ call.query.texts = some t.texts
  /-- Cached vectors are the successful result of a task of the scope. -/
  cached : ∀ scope texts vectors, (s.scopes scope).cache.get? texts = some (.vectors vectors) →
    s.Provided scope texts vectors
  /-- A task whose callback has run is in no cache. -/
  evicted : ∀ (id : Nat) (t : ProviderTask), s.tasks[id]? = some t → t.completed = true →
    ∀ scope texts, (s.scopes scope).cache.get? texts ≠ some (.task id)
  /-- No task of an open scope was asked to cancel. -/
  uncancelled : ∀ (id : Nat) (t : ProviderTask), s.tasks[id]? = some t →
    (s.scopes t.scope).phase = .body → t.cancelRequested = false
  /-- A closed scope has no entry and no task that has not ended. -/
  closed : ∀ scope, (s.scopes scope).phase = .closed →
    (∀ texts, (s.scopes scope).cache.get? texts = none) ∧
    ∀ (id : Nat) (t : ProviderTask), s.tasks[id]? = some t → t.scope = scope →
      t.status.isDone = true

theorem Inv.singleFlight (h : Inv s) : SingleFlight s where
  one_unfinished := by
    intro id id' t t' ht ht' hunfinished hunfinished' hscope htexts
    have hentry := h.unfinished id t ht hunfinished
    have hentry' := h.unfinished id' t' ht' hunfinished'
    rw [hscope, htexts, hentry'] at hentry
    exact (CacheEntry.task.inj (Option.some.inj hentry)).symm
  own_result := fun call hcall => (h.calls call hcall).received
  own_task := by
    intro call hcall awaited hwaiting
    obtain ⟨id, t, rfl, ht⟩ := (h.calls call hcall).waiting awaited hwaiting
    exact ⟨t, ht⟩
  cached := h.cached_vectors
  evicted := by
    intro id t ht hcompleted scope texts hentry
    obtain ⟨t', ht', _, _, hnot⟩ := h.cached_task scope texts id hentry
    rw [Option.some.inj (ht.symm.trans ht'), hnot] at hcompleted
    cases hcompleted
  uncancelled := h.uncancelled
  closed := by
    intro scope hover
    refine ⟨h.closed scope hover, fun id t ht hscope => ?_⟩
    by_contra hunfinished
    have hentry := h.unfinished id t ht (Bool.eq_false_iff.mpr hunfinished)
    rw [hscope, h.closed scope hover] at hentry
    cases hentry

/-- After failures only, a call starts a new task. -/
theorem Inv.retries (h : Inv s) {scope : Nat} {query : Query} {texts : Texts}
    (htexts : query.texts = some texts)
    (hfailed : ∀ (id : Nat) (t : ProviderTask), s.tasks[id]? = some t → t.scope = scope →
      t.texts = texts → t.completed = true ∧ ∀ vectors, t.status ≠ .done (.success vectors)) :
    (s.beginCall scope query).tasks = s.tasks ++ [{ scope := scope, texts := texts }] ∧
      (s.beginCall scope query).calls
        = s.calls ++ [⟨scope, query, .waiting (.shield s.tasks.length)⟩] := by
  have hnone : (s.scopes scope).cache.get? texts = none := by
    cases hentry : (s.scopes scope).cache.get? texts with
    | none => rfl
    | some entry =>
      cases entry with
      | task id =>
        obtain ⟨t, ht, hscope, htexts, hnot⟩ := h.cached_task scope texts id hentry
        rw [(hfailed id t ht hscope htexts).1] at hnot
        cases hnot
      | vectors vectors =>
        obtain ⟨id, t, ht, hscope, htexts, hsuccess, _⟩ :=
          h.cached_vectors scope texts vectors hentry
        exact absurd hsuccess ((hfailed id t ht hscope htexts).2 vectors)
  have hembed : s.embedQuery scope texts
      = (s.createTask scope texts, .waiting (.shield s.tasks.length)) := by
    have hstatus : (s.createTask scope texts).statusOf s.tasks.length = some .scheduled := by
      show ((s.tasks ++ [_])[s.tasks.length]?).map ProviderTask.status = _
      simp
    unfold embedQuery
    rw [hnone]
    simp [AdapterState.await, AdapterState.shield, hstatus, Awaited.id]
  unfold AdapterState.beginCall
  rw [htexts]
  dsimp only
  rw [hembed]
  exact ⟨rfl, rfl⟩

end AdapterState

open AdapterState in
/-- The guarantees of the adapter, in every order of its events.  In each state
the tasks, the caches and the calls agree.  A cancelled call changes no task and
no cache, a call after failures starts a new task, and an event of one scope
leaves the others alone. -/
theorem single_flight {s : AdapterState} (h : queryEmbedding.Reachable s) :
    SingleFlight s ∧
    (∀ c s', s.step (.cancel c) = some s' → s'.tasks = s.tasks ∧ s'.scopes = s.scopes) ∧
    (∀ scope query texts s', query.texts = some texts → s.step (.call scope query) = some s' →
      (∀ (id : Nat) (t : ProviderTask), s.tasks[id]? = some t → t.scope = scope →
        t.texts = texts → t.completed = true ∧ ∀ vectors, t.status ≠ .done (.success vectors)) →
      s'.tasks = s.tasks ++ [{ scope := scope, texts := texts }] ∧
        s'.calls = s.calls ++ [⟨scope, query, .waiting (.shield s.tasks.length)⟩]) ∧
    ∀ e s', s.step e = some s' → ∀ i, s.scopeOf e ≠ some i → SameIn i s s' := by
  have hinv := inv_of_reachable h
  refine ⟨hinv.singleFlight, fun c s' hstep => ?_, ?_, fun e s' hstep i => hinv.sameIn hstep⟩
  · obtain ⟨call, awaited, hcall, hwaiting, rfl⟩ := step_effect hstep
    obtain ⟨id, t, rfl, _⟩ :=
      (hinv.calls call (List.mem_of_getElem? hcall)).waiting awaited hwaiting
    exact ⟨rfl, rfl⟩
  · intro scope query texts s' htexts hstep hfailed
    obtain ⟨_, rfl⟩ := step_effect hstep
    exact hinv.retries htexts hfailed

/-- Two calls share a task that fails, one of them is cancelled, and a third call
starts a second task. -/
def retryEvents : List AdapterEvent :=
  [.enter 0, .call 0 (.dense ["red"]), .call 0 (.lexical ["red"]), .start 0, .cancel 0,
    .finish 0 (.failure "down"), .complete 0, .resume 1, .call 0 (.dense ["red"]), .start 1,
    .finish 1 (.success [[1]]), .complete 1, .resume 2, .exit 0, .close 0]

theorem single_flight_retry :
    ∃ s, queryEmbedding.after {} retryEvents = some s ∧
      s.calls = [⟨0, .dense ["red"], .cancelled⟩, ⟨0, .lexical ["red"], .raised "down"⟩,
        ⟨0, .dense ["red"], .received [[1]]⟩] ∧
      s.submissions = [(0, ["red"]), (1, ["red"])] ∧
      ∀ texts, (s.scopes 0).cache.get? texts = none := by
  have hcalls : (queryEmbedding.after {} retryEvents).map AdapterState.calls
      = some [⟨0, .dense ["red"], .cancelled⟩, ⟨0, .lexical ["red"], .raised "down"⟩,
        ⟨0, .dense ["red"], .received [[1]]⟩] := by decide +kernel
  obtain ⟨s, hs, hcalls⟩ := Option.map_eq_some_iff.mp hcalls
  have hsub : (queryEmbedding.after {} retryEvents).map AdapterState.submissions
      = some [(0, ["red"]), (1, ["red"])] := by decide +kernel
  have hover : (queryEmbedding.after {} retryEvents).map (fun s => (s.scopes 0).phase)
      = some .closed := by decide +kernel
  rw [hs] at hsub hover
  have hflight := (single_flight (Machine.Reachable.after .init hs)).1
  exact ⟨s, hs, hcalls, Option.some.inj hsub, (hflight.closed 0 (Option.some.inj hover)).1⟩

end VirtualContributor.Adapters
