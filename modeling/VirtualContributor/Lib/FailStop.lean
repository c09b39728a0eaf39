import VirtualContributor.Lib.Program

/-!
# Programs that stop at a fatal event

Some answers are fatal: after one the program is to make no further call and
to raise a critical exception.  An event can hide that it is fatal, as a pair
of concurrent calls does of which only one failure is raised; such an event is
*masked*.

`Stops F t r` classifies the trace `t` of a run with the result `r`.  Nothing
fatal happened, or the run stopped at the first fatal event, or a masked event
happened and the run did not stop there as it should.  `FailStop F p` says
that this covers every run of `p`.

The rules follow the ways programs are put together: sequences, a handler that
lets critical exceptions pass, and programs of one interface among the calls
of two.  Such a handler is safe when its other branch makes a call: then a
masked event that reached it is not the last event of the run.
-/

namespace VirtualContributor.Lib

/-- Which events are fatal, which of them are masked, and which exceptions are
critical. -/
structure Faults (S : Signature) (ε : Type) where
  fatal : Program.Event S → Prop
  masked : Program.Event S → Prop
  critical : ε → Prop

namespace Program

variable {S T : Signature} {ε α β : Type}

/-- The run makes no call after the first fatal event, or it does not stop at
a masked one. -/
inductive Stops (F : Faults S ε) : List (Event S) → Except ε α → Prop
  | clean {t : List (Event S)} {r : Except ε α} : (∀ e ∈ t, ¬F.fatal e) → Stops F t r
  | stopped {t : List (Event S)} {e : Event S} {exc : ε} : (∀ e' ∈ t, ¬F.fatal e') →
      F.fatal e → ¬F.masked e → F.critical exc → Stops F (t ++ [e]) (.error exc)
  | masked {t t' : List (Event S)} {e : Event S} {r : Except ε α} : F.masked e →
      (t' ≠ [] ∨ ∃ exc, r = .error exc ∧ ¬F.critical exc) → Stops F (t ++ e :: t') r

/-- Every run of the program stops at a fatal event or at no masked one. -/
def FailStop (F : Faults S ε) (p : ExceptT ε (Program S) α) : Prop :=
  ∀ {σ : Type} {W : World S σ} {s s' : σ} {t : List (Event S)} {r : Except ε α},
    Runs W p.run s t r s' → Stops F t r

/-- Every run of the program makes a call. -/
def Acts (p : Program S α) : Prop :=
  ∀ {σ : Type} {W : World S σ} {s s' : σ} {t : List (Event S)} {a : α},
    Runs W p s t a s' → t ≠ []

/-- What a handler makes of a result: only critical exceptions pass. -/
def handled (critical : ε → Bool) : Except ε α → Except ε (Option α)
  | .ok a => .ok (some a)
  | .error exc => if critical exc then .error exc else .ok none

/-- Run a program in a handler. -/
def attempt (critical : ε → Bool) (p : ExceptT ε (Program S) α) :
    ExceptT ε (Program S) (Option α) :=
  ExceptT.mk (p.run.bind fun r => .done (handled critical r))

/-- A program of the first interface that can raise, among the calls of both. -/
def exceptInLeft (p : ExceptT ε (Program S) α) : ExceptT ε (Program (S.sum T)) α :=
  ExceptT.mk p.run.inLeft

/-! ## Runs of programs that can raise -/

section Runs

variable {σ : Type} {W : World S σ} {s s' : σ} {t : List (Event S)}

/-- A run of a sequence: the first part raises, or both parts run. -/
theorem runs_exceptBind_iff {p : ExceptT ε (Program S) α} {f : α → ExceptT ε (Program S) β}
    {r : Except ε β} :
    Runs W (p >>= f).run s t r s' ↔
      (∃ exc, r = .error exc ∧ Runs W p.run s t (.error exc) s') ∨
        ∃ a s₁ t₁ t₂, t = t₁ ++ t₂ ∧ Runs W p.run s t₁ (.ok a) s₁ ∧
          Runs W (f a).run s₁ t₂ r s' := by
  refine Iff.trans runs_bind_iff ⟨?_, ?_⟩
  · rintro ⟨res, s₁, t₁, t₂, rfl, hp, hf⟩
    cases res with
    | error exc =>
      obtain ⟨rfl, rfl, rfl⟩ := runs_done_iff.mp hf
      refine .inl ⟨exc, rfl, ?_⟩
      rwa [List.append_nil]
    | ok a => exact .inr ⟨a, s₁, t₁, t₂, rfl, hp, hf⟩
  · rintro (⟨exc, rfl, hp⟩ | ⟨a, s₁, t₁, t₂, rfl, hp, hf⟩)
    · exact ⟨.error exc, s', t, [], (List.append_nil t).symm, hp, .done _ _⟩
    · exact ⟨.ok a, s₁, t₁, t₂, rfl, hp, hf⟩

theorem runs_attempt_iff {critical : ε → Bool} {p : ExceptT ε (Program S) α}
    {r : Except ε (Option α)} :
    Runs W (attempt critical p).run s t r s' ↔
      ∃ res, Runs W p.run s t res s' ∧ r = handled critical res := by
  refine Iff.trans runs_bind_iff ⟨?_, ?_⟩
  · rintro ⟨res, s₁, t₁, t₂, rfl, hp, hdone⟩
    obtain ⟨rfl, rfl, rfl⟩ := runs_done_iff.mp hdone
    refine ⟨res, ?_, rfl⟩
    rwa [List.append_nil]
  · rintro ⟨res, hp, rfl⟩
    exact ⟨res, s', t, [], (List.append_nil t).symm, hp, .done _ _⟩

end Runs

/-! ## Programs all of whose calls are allowed -/

theorem Yields.exceptBind {ok : S.Call → Prop} {p : ExceptT ε (Program S) α}
    {f : α → ExceptT ε (Program S) β} (hp : p.run.Yields ok fun _ => True)
    (hf : ∀ a, (f a).run.Yields ok fun _ => True) :
    (p >>= f).run.Yields ok fun _ => True := by
  refine Yields.bind hp fun r _ => ?_
  cases r with
  | error exc => trivial
  | ok a => exact hf a

theorem yields_inLeft {p : Program S α} :
    Yields (S := S.sum T) (fun c => ∃ c₀ : S.Call, c = Sum.inl c₀) (fun _ => True) p.inLeft := by
  induction p with
  | done a => trivial
  | call c next ih => exact ⟨⟨c, rfl⟩, ih⟩

/-! ## Programs that make a call -/

theorem acts_call (c : S.Call) (next : S.Answer c → Program S α) : Acts (.call c next) := by
  intro σ W s s' t a h
  obtain ⟨r, s₁, t', -, rfl, -⟩ := runs_call_iff.mp h
  exact List.cons_ne_nil _ _

theorem Acts.exceptBind {p : ExceptT ε (Program S) α} {f : α → ExceptT ε (Program S) β}
    (h : Acts p.run) : Acts (p >>= f).run := by
  intro σ W s s' t r hrun
  rcases runs_exceptBind_iff.mp hrun with ⟨exc, -, hp⟩ | ⟨a, s₁, t₁, t₂, rfl, hp, -⟩
  · exact h hp
  · exact fun hnil => h hp (List.append_eq_nil_iff.mp hnil).1

/-! ## The rules -/

section Rules

variable {F : Faults S ε}

theorem failStop_done (r : Except ε α) : FailStop F (ExceptT.mk (.done r)) := by
  intro σ W s s' t r' h
  obtain ⟨rfl, -, -⟩ := runs_done_iff.mp h
  exact .clean fun _ he => absurd he List.not_mem_nil

/-- One call, whose answer decides the result. -/
theorem failStop_call {c : S.Call} {f : S.Answer c → Except ε α}
    (h : ∀ r, Stops F [⟨c, r⟩] (f r)) :
    FailStop F (ExceptT.mk (.call c fun r => .done (f r))) := by
  intro σ W s s' t res hrun
  obtain ⟨r, s₁, t', -, rfl, hdone⟩ := runs_call_iff.mp hrun
  obtain ⟨rfl, rfl, -⟩ := runs_done_iff.mp hdone
  exact h r

/-- A program none of whose calls can be fatal. -/
theorem Yields.failStop {ok : S.Call → Prop} {p : ExceptT ε (Program S) α}
    (hok : ∀ c, ok c → ∀ r, ¬F.fatal ⟨c, r⟩) (h : p.run.Yields ok fun _ => True) :
    FailStop F p := by
  intro σ W s s' t r hrun
  exact .clean fun e he => hok e.call ((h.calls hrun).2 e he) e.answer

/-- A call that is never fatal. -/
theorem failStop_call_bind {c : S.Call} {next : S.Answer c → ExceptT ε (Program S) α}
    (hc : ∀ r, ¬F.fatal ⟨c, r⟩) (h : ∀ r, FailStop F (next r)) :
    FailStop F (ExceptT.mk (.call c fun r => (next r).run)) := by
  intro σ W s s' t res hrun
  obtain ⟨r, s₁, t', -, rfl, hnext⟩ := runs_call_iff.mp hrun
  cases h r hnext with
  | clean hclean => exact .clean (List.forall_mem_cons.mpr ⟨hc r, hclean⟩)
  | stopped hclean hfatal hmasked hcritical =>
    exact .stopped (t := ⟨c, r⟩ :: _) (List.forall_mem_cons.mpr ⟨hc r, hclean⟩) hfatal hmasked
      hcritical
  | masked hmasked hrest => exact .masked (t := ⟨c, r⟩ :: _) hmasked hrest

/-- An exception goes through the rest of a sequence. -/
theorem Stops.raise {t : List (Event S)} {exc : ε} (h : Stops F t (.error exc : Except ε α)) :
    Stops F t (.error exc : Except ε β) := by
  cases h with
  | clean hclean => exact .clean hclean
  | stopped hclean hfatal hmasked hcritical => exact .stopped hclean hfatal hmasked hcritical
  | masked hmasked hrest =>
    refine .masked hmasked (hrest.imp_right ?_)
    rintro ⟨exc', hexc, hcritical⟩
    cases hexc
    exact ⟨exc, rfl, hcritical⟩

/-- A run that went on after `t`, which it did not end in a critical
exception. -/
theorem Stops.append {t t' : List (Event S)} {r : Except ε α} {r' : Except ε β}
    (h : Stops F t r) (hr : ∀ exc, r = .error exc → ¬F.critical exc ∧ t' ≠ [])
    (h' : Stops F t' r') : Stops F (t ++ t') r' := by
  cases h with
  | clean hclean =>
    cases h' with
    | clean hclean' => exact .clean (List.forall_mem_append.mpr ⟨hclean, hclean'⟩)
    | stopped hclean' hfatal hmasked hcritical =>
      rw [← List.append_assoc]
      exact .stopped (List.forall_mem_append.mpr ⟨hclean, hclean'⟩) hfatal hmasked hcritical
    | masked hmasked hrest =>
      rw [← List.append_assoc]
      exact .masked hmasked hrest
  | stopped hclean hfatal hmasked hcritical => exact absurd hcritical (hr _ rfl).1
  | masked hmasked hrest =>
    rw [List.append_assoc, List.cons_append]
    refine .masked hmasked (.inl fun hnil => ?_)
    obtain ⟨hpost, ht'⟩ := List.append_eq_nil_iff.mp hnil
    obtain ⟨exc, hexc, -⟩ := hrest.resolve_left (· hpost)
    exact (hr exc hexc).2 ht'

theorem FailStop.exceptBind {p : ExceptT ε (Program S) α} {f : α → ExceptT ε (Program S) β}
    (hp : FailStop F p) (hf : ∀ a, FailStop F (f a)) : FailStop F (p >>= f) := by
  intro σ W s s' t r hrun
  rcases runs_exceptBind_iff.mp hrun with ⟨exc, rfl, h⟩ | ⟨a, s₁, t₁, t₂, rfl, h, h'⟩
  · exact (hp h).raise
  · exact (hp h).append (by rintro exc ⟨⟩) (hf a h')

/-- A handler that lets critical exceptions pass, when what follows a handled
exception makes a call. -/
theorem FailStop.attempt {critical : ε → Bool} (hpass : ∀ exc, F.critical exc → critical exc)
    {p : ExceptT ε (Program S) α} {f : Option α → ExceptT ε (Program S) β} (hp : FailStop F p)
    (hf : ∀ a, FailStop F (f a)) (hacts : Acts (f none).run) :
    FailStop F (attempt critical p >>= f) := by
  intro σ W s s' t r hrun
  rcases runs_exceptBind_iff.mp hrun with ⟨exc, rfl, h⟩ | ⟨a, s₁, t₁, t₂, rfl, h, h'⟩
  · obtain ⟨res, hres, hexc⟩ := runs_attempt_iff.mp h
    cases res with
    | ok a => cases hexc
    | error exc' =>
      by_cases hcritical : critical exc'
      · rw [handled, if_pos hcritical] at hexc
        cases hexc
        exact (hp hres).raise
      · rw [handled, if_neg hcritical] at hexc
        cases hexc
  · obtain ⟨res, hres, hvalue⟩ := runs_attempt_iff.mp h
    refine (hp hres).append (fun exc hexc => ?_) (hf a h')
    subst hexc
    by_cases hcritical : critical exc
    · rw [handled, if_pos hcritical] at hvalue
      cases hvalue
    · rw [handled, if_neg hcritical] at hvalue
      cases hvalue
      exact ⟨fun h => hcritical (hpass exc h), hacts h'⟩

end Rules

/-! ## Two interfaces -/

/-- The faults of the first interface, among the calls of both. -/
def onLeft (F : Faults S ε) : Faults (S.sum T) ε where
  fatal
    | ⟨.inl c, r⟩ => F.fatal ⟨c, r⟩
    | ⟨.inr _, _⟩ => False
  masked
    | ⟨.inl c, r⟩ => F.masked ⟨c, r⟩
    | ⟨.inr _, _⟩ => False
  critical := F.critical

theorem FailStop.inLeft {F : Faults S ε} {p : ExceptT ε (Program S) α} (h : FailStop F p) :
    FailStop (onLeft (T := T) F) (exceptInLeft p) := by
  intro σ W s s' t r hrun
  obtain ⟨t₁, rfl, hrun₁⟩ := runs_of_inLeft hrun
  have clean {t : List (Event S)} (hclean : ∀ e ∈ t, ¬F.fatal e) :
      ∀ e ∈ t.map Event.inLeft, ¬(onLeft (T := T) F).fatal e :=
    List.forall_mem_map.mpr hclean
  cases h hrun₁ with
  | clean hclean => exact .clean (clean hclean)
  | stopped hclean hfatal hmasked hcritical =>
    rw [List.map_append]
    exact .stopped (clean hclean) hfatal hmasked hcritical
  | masked hmasked hrest =>
    rw [List.map_append]
    exact .masked (e := Event.inLeft _) hmasked
      (hrest.imp_left fun hpost hnil => hpost (List.map_eq_nil_iff.mp hnil))

/-! ## Runs that halt -/

/-- An event of the kind is the last of the trace. -/
def OnlyLast (A : Event S → Prop) (t : List (Event S)) : Prop :=
  ∀ t₁ e t₂, t = t₁ ++ e :: t₂ → A e → t₂ = []

theorem OnlyLast.append {A : Event S → Prop} {t t' : List (Event S)} (h : ∀ e ∈ t, ¬A e)
    (h' : OnlyLast A t') : OnlyLast A (t ++ t') := by
  intro t₁ e t₂ heq hA
  rcases List.append_eq_append_iff.mp heq with ⟨u, rfl, hu⟩ | ⟨u, rfl, hu⟩
  · exact h' u e t₂ hu hA
  · cases u with
    | nil => exact h' [] e t₂ hu.symm hA
    | cons x u =>
      obtain ⟨rfl, -⟩ := List.cons.inj hu
      exact absurd hA (h e (by simp))

theorem onlyLast_of_not_mem {A : Event S → Prop} {t : List (Event S)} (h : ∀ e ∈ t, ¬A e) :
    OnlyLast A t := fun t₁ e t₂ heq hA => absurd hA (h e (by simp [heq]))

/-- Two events that can only be the last are one. -/
theorem OnlyLast.unique {A B : Event S → Prop} {t : List (Event S)} (hA : OnlyLast A t)
    (hB : OnlyLast B t) {e e' : Event S} (he : e ∈ t) (hAe : A e) (he' : e' ∈ t) (hBe : B e') :
    e = e' := by
  obtain ⟨t₁, t₂, rfl⟩ := List.append_of_mem he
  obtain ⟨t₃, t₄, heq⟩ := List.append_of_mem he'
  obtain rfl := hA _ _ _ rfl hAe
  obtain rfl := hB _ _ _ heq hBe
  exact (List.cons.inj (List.append_inj' heq rfl).2).1

/-- In every run of the program an event of the kind is the last. -/
def CallsLast (A : Event S → Prop) (p : Program S α) : Prop :=
  ∀ {σ : Type} {W : World S σ} {s s' : σ} {t : List (Event S)} {a : α},
    Runs W p s t a s' → OnlyLast A t

theorem Yields.callsLast {A : Event S → Prop} {ok : S.Call → Prop} {Q : α → Prop}
    {p : Program S α} (hok : ∀ c, ok c → ∀ r, ¬A ⟨c, r⟩) (h : p.Yields ok Q) : CallsLast A p := by
  intro σ W s s' t a hrun
  exact onlyLast_of_not_mem fun e he => hok e.call ((h.calls hrun).2 e he) e.answer

/-- A call that nothing follows. -/
theorem callsLast_call {A : Event S → Prop} {Q : α → Prop} {c : S.Call}
    {next : S.Answer c → Program S α} (h : ∀ r, (next r).Yields (fun _ => False) Q) :
    CallsLast A (.call c next) := by
  intro σ W s s' t a hrun
  obtain ⟨r, s₁, t', -, rfl, hnext⟩ := runs_call_iff.mp hrun
  obtain rfl : t' = [] := List.eq_nil_iff_forall_not_mem.mpr ((h r).calls hnext).2
  intro t₁ e t₂ heq _
  have hlength := congrArg List.length heq
  simp only [List.length_append, List.length_cons, List.length_nil] at hlength
  exact List.length_eq_zero_iff.mp (by omega)

theorem CallsLast.exceptBind {A : Event S → Prop} {ok : S.Call → Prop}
    {p : ExceptT ε (Program S) α} {f : α → ExceptT ε (Program S) β}
    (hok : ∀ c, ok c → ∀ r, ¬A ⟨c, r⟩) (hp : p.run.Yields ok fun _ => True)
    (hf : ∀ a, CallsLast A (f a).run) : CallsLast A (p >>= f).run := by
  intro σ W s s' t r hrun
  have clean {s s' : σ} {t : List (Event S)} {r : Except ε α} (h : Runs W p.run s t r s') :
      ∀ e ∈ t, ¬A e := fun e he => hok e.call ((hp.calls h).2 e he) e.answer
  rcases runs_exceptBind_iff.mp hrun with ⟨exc, rfl, h⟩ | ⟨a, s₁, t₁, t₂, rfl, h, h'⟩
  · exact onlyLast_of_not_mem (clean h)
  · exact .append (clean h) (hf a h')

/-- A fatal event is the last of the run, and the run raised a critical
exception. -/
structure Halts (F : Faults S ε) (t : List (Event S)) (r : Except ε α) : Prop where
  last : OnlyLast F.fatal t
  raised : ∃ exc, r = .error exc ∧ F.critical exc

/-- A run that stops halts at a fatal event, unless it got a masked one. -/
theorem Stops.halts_iff {F : Faults S ε} (hfatal : ∀ e, F.masked e → F.fatal e)
    {t : List (Event S)} {r : Except ε α} (h : Stops F t r) :
    ((∃ e ∈ t, F.fatal e) → Halts F t r) ↔ ∀ e ∈ t, ¬F.masked e := by
  constructor
  · intro himp e he hmasked
    have hhalts := himp ⟨e, he, hfatal e hmasked⟩
    cases h with
    | clean hclean => exact hclean e he (hfatal e hmasked)
    | stopped hclean _ hlast _ =>
      rcases List.mem_append.mp he with he | he
      · exact hclean e he (hfatal e hmasked)
      · exact hlast (List.mem_singleton.mp he ▸ hmasked)
    | masked hmasked' hrest =>
      have hpost := hhalts.last _ _ _ rfl (hfatal _ hmasked')
      obtain ⟨exc, hexc, hcritical⟩ := hrest.resolve_left (· hpost)
      obtain ⟨exc', hexc', hcritical'⟩ := hhalts.raised
      cases hexc.symm.trans hexc'
      exact hcritical hcritical'
  · rintro hnone ⟨e, he, hfatal'⟩
    cases h with
    | clean hclean => exact absurd hfatal' (hclean e he)
    | stopped hclean _ _ hcritical =>
      refine ⟨.append hclean fun t₁ e' t₂ ht _ => ?_, _, rfl, hcritical⟩
      have hlength := congrArg List.length ht
      simp only [List.length_append, List.length_cons, List.length_nil] at hlength
      exact List.length_eq_zero_iff.mp (by omega)
    | masked hmasked _ => exact absurd hmasked (hnone _ (by simp))

end Program

end VirtualContributor.Lib
