import Mathlib.Data.List.Basic

/-!
# Programs as trees of external calls

A program that talks to the outside world only through calls is a tree.  A
leaf is a returned value, and a node is one call with a continuation for each
answer the call may get.  Nothing here fixes what the calls are: a
`Signature` names them and the type of answer of each.

There are eight groups.

* The tree and its monad structure.  `Program.bind` grafts, and the monad laws
  are structural inductions.
* Runs.  A `World` says which answers a call may get in a state and which
  state follows.  `Runs W p s t a s'` is one run of `p` with the trace `t` of
  the calls made and the answers they got.
* Interrupted runs.  `Reaches W p s s'` says that `s'` is the state at some
  point of some run of `p`.
* Calls that are all allowed.  `Yields ok Q p` says that every call `p` can
  make satisfies `ok` and every value it can return satisfies `Q`, whatever
  the answers are.
* Calls that are programs.  `expand` puts a program in the place of each call,
  and `Runs.of_expand` says that its runs are runs of the first program.
* One answer for each call.  `answer` runs a program against a function of the
  calls.
* Two interfaces.  `inLeft` and `inRight` put a program of one interface among
  the calls of two.
* Scripted worlds.  `eval` runs a program against a function that answers
  calls, and `eval_runs` says that this is a run.
-/

namespace VirtualContributor.Lib

/-- The calls of an interface and the type of answer of each call. -/
structure Signature where
  Call : Type
  Answer : Call → Type

/-- The calls of two interfaces. -/
abbrev Signature.sum (S T : Signature) : Signature where
  Call := S.Call ⊕ T.Call
  Answer := Sum.elim S.Answer T.Answer

/-- A finite tree of calls. -/
inductive Program (S : Signature) (α : Type) where
  | done (value : α)
  | call (c : S.Call) (next : S.Answer c → Program S α)

namespace Program

variable {S : Signature} {α β γ σ : Type}

/-- Graft `f` onto every leaf. -/
def bind : Program S α → (α → Program S β) → Program S β
  | done a, f => f a
  | call c next, f => call c (fun r => (next r).bind f)

instance : Monad (Program S) where
  pure := done
  bind := bind

/-- The program that makes one call and returns its answer. -/
def request (c : S.Call) : Program S (S.Answer c) := call c done

@[simp] theorem pure_eq_done (a : α) : (pure a : Program S α) = done a := rfl

@[simp] theorem bind_eq_bind (p : Program S α) (f : α → Program S β) : p >>= f = p.bind f := rfl

@[simp] theorem done_bind (a : α) (f : α → Program S β) : (done a).bind f = f a := rfl

@[simp] theorem call_bind (c : S.Call) (next : S.Answer c → Program S α)
    (f : α → Program S β) : (call c next).bind f = call c (fun r => (next r).bind f) := rfl

@[simp] theorem request_bind (c : S.Call) (f : S.Answer c → Program S β) :
    (request c).bind f = call c f := rfl

@[simp] theorem bind_done (p : Program S α) : p.bind done = p := by
  induction p with
  | done a => rfl
  | call c next ih => simp [ih]

theorem bind_assoc (p : Program S α) (f : α → Program S β) (g : β → Program S γ) :
    (p.bind f).bind g = p.bind (fun a => (f a).bind g) := by
  induction p with
  | done a => rfl
  | call c next ih => simp [ih]

@[simp] theorem map_eq_bind (f : α → β) (p : Program S α) :
    f <$> p = p.bind (fun a => done (f a)) := rfl

instance : LawfulMonad (Program S) :=
  LawfulMonad.mk' (Program S) bind_done (fun _ _ => rfl) bind_assoc

/-! ## Runs -/

/-- One call with the answer it got. -/
structure Event (S : Signature) where
  call : S.Call
  answer : S.Answer call

/-- What a world may do: in state `s` the call `c` may be answered `r`, which
leaves the state `s'`. -/
abbrev World (S : Signature) (σ : Type) := σ → (c : S.Call) → S.Answer c → σ → Prop

/-- `Runs W p s t a s'`: from state `s` the program `p` makes the calls of `t`,
gets the answers of `t`, returns `a` and leaves the state `s'`. -/
inductive Runs (W : World S σ) : Program S α → σ → List (Event S) → α → σ → Prop
  | done (a : α) (s : σ) : Runs W (.done a) s [] a s
  | call {c : S.Call} {next : S.Answer c → Program S α} {s s₁ s' : σ} {r : S.Answer c}
      {t : List (Event S)} {a : α} :
      W s c r s₁ → Runs W (next r) s₁ t a s' → Runs W (.call c next) s (⟨c, r⟩ :: t) a s'

theorem runs_done_iff {W : World S σ} {a b : α} {s s' : σ} {t : List (Event S)} :
    Runs W (done a) s t b s' ↔ t = [] ∧ b = a ∧ s' = s := by
  constructor
  · intro h
    cases h
    exact ⟨rfl, rfl, rfl⟩
  · rintro ⟨rfl, rfl, rfl⟩
    exact .done _ _

theorem runs_call_iff {W : World S σ} {c : S.Call} {next : S.Answer c → Program S α}
    {b : α} {s s' : σ} {t : List (Event S)} :
    Runs W (call c next) s t b s' ↔
      ∃ r s₁ t', W s c r s₁ ∧ t = ⟨c, r⟩ :: t' ∧ Runs W (next r) s₁ t' b s' := by
  constructor
  · intro h
    cases h with
    | call hw hr => exact ⟨_, _, _, hw, rfl, hr⟩
  · rintro ⟨r, s₁, t', hw, rfl, hr⟩
    exact .call hw hr

/-- A run of a sequence is a run of the first part and then one of the second. -/
theorem runs_bind_iff {W : World S σ} {p : Program S α} {f : α → Program S β}
    {s s' : σ} {t : List (Event S)} {b : β} :
    Runs W (p.bind f) s t b s' ↔
      ∃ a s₁ t₁ t₂, t = t₁ ++ t₂ ∧ Runs W p s t₁ a s₁ ∧ Runs W (f a) s₁ t₂ b s' := by
  induction p generalizing s t with
  | done a =>
    constructor
    · intro h
      exact ⟨a, s, [], t, rfl, .done a s, h⟩
    · rintro ⟨a', s₁, t₁, t₂, rfl, h₁, h₂⟩
      obtain ⟨rfl, rfl, rfl⟩ := runs_done_iff.mp h₁
      exact h₂
  | call c next ih =>
    rw [call_bind, runs_call_iff]
    constructor
    · rintro ⟨r, s₁, t', hw, rfl, h⟩
      obtain ⟨a, s₂, t₁, t₂, rfl, h₁, h₂⟩ := (ih r).mp h
      exact ⟨a, s₂, ⟨c, r⟩ :: t₁, t₂, rfl, .call hw h₁, h₂⟩
    · rintro ⟨a, s₂, t₁, t₂, rfl, h₁, h₂⟩
      obtain ⟨r, s₁, t', hw, rfl, h₁'⟩ := runs_call_iff.mp h₁
      exact ⟨r, s₁, t' ++ t₂, hw, rfl, (ih r).mpr ⟨a, s₂, t', t₂, rfl, h₁', h₂⟩⟩

/-- A world that allows more allows the same runs. -/
theorem Runs.mono {W W' : World S σ} (h : ∀ s c r s', W s c r s' → W' s c r s')
    {p : Program S α} {s s' : σ} {t : List (Event S)} {a : α} (hr : Runs W p s t a s') :
    Runs W' p s t a s' := by
  induction hr with
  | done a s => exact .done a s
  | call hw _ ih => exact .call (h _ _ _ _ hw) ih

/-- The world with only some of its answers. -/
def World.restrict (W : World S σ) (ok : (c : S.Call) → S.Answer c → Prop) : World S σ :=
  fun s c r s' => W s c r s' ∧ ok c r

theorem Runs.restrict {W : World S σ} {ok : (c : S.Call) → S.Answer c → Prop} {p : Program S α}
    {s s' : σ} {t : List (Event S)} {a : α} (h : Runs W p s t a s')
    (ht : ∀ e ∈ t, ok e.call e.answer) : Runs (W.restrict ok) p s t a s' := by
  induction h with
  | done a s => exact .done a s
  | call hw _ ih =>
    obtain ⟨he, ht⟩ := List.forall_mem_cons.mp ht
    exact .call ⟨hw, he⟩ (ih ht)

/-- A trace tells what the program returned, whatever the world. -/
theorem Runs.value_unique {τ : Type} {W : World S σ} {W' : World S τ} {p : Program S α}
    {s s' : σ} {u u' : τ} {t : List (Event S)} {a b : α} (h : Runs W p s t a s')
    (h' : Runs W' p u t b u') : a = b := by
  induction h generalizing u with
  | done a s =>
    obtain ⟨_, rfl, _⟩ := runs_done_iff.mp h'
    rfl
  | call hw _ ih =>
    cases h' with
    | call hw' hr' => exact ih hr'

/-- In a world that answers every call, every program has a run. -/
theorem exists_runs {W : World S σ} (h : ∀ s c, ∃ r s', W s c r s') (p : Program S α) (s : σ) :
    ∃ t a s', Runs W p s t a s' := by
  induction p generalizing s with
  | done a => exact ⟨[], a, s, .done a s⟩
  | call c next ih =>
    obtain ⟨r, s₁, hw⟩ := h s c
    obtain ⟨t, a, s', hrest⟩ := ih r s₁
    exact ⟨_, a, s', .call hw hrest⟩

/-- A traversal returns one value for each element. -/
theorem Runs.length_mapM {W : World S σ} {f : α → Program S β} {xs : List α} {ys : List β}
    {s s' : σ} {t : List (Event S)} (h : Runs W (xs.mapM f) s t ys s') :
    ys.length = xs.length := by
  induction xs generalizing s s' t ys with
  | nil =>
    obtain ⟨_, rfl, _⟩ := runs_done_iff.mp h
    rfl
  | cons x xs ih =>
    rw [List.mapM_cons] at h
    obtain ⟨y, s₁, t₁, t₂, rfl, _, hrest⟩ := runs_bind_iff.mp h
    obtain ⟨ys', s₂, t₃, t₄, rfl, hothers, hdone⟩ := runs_bind_iff.mp hrest
    obtain ⟨_, rfl, _⟩ := runs_done_iff.mp hdone
    rw [List.length_cons, List.length_cons, ih hothers]

/-! ## Interrupted runs -/

/-- `Reaches W p s s'`: started in `s`, the program `p` can be stopped in the
state `s'`, at its end or before one of its calls. -/
inductive Reaches (W : World S σ) : Program S α → σ → σ → Prop
  | stop (p : Program S α) (s : σ) : Reaches W p s s
  | call {c : S.Call} {next : S.Answer c → Program S α} {s s₁ s' : σ} {r : S.Answer c} :
      W s c r s₁ → Reaches W (next r) s₁ s' → Reaches W (.call c next) s s'

/-- A completed run reaches its last state. -/
theorem Runs.reaches {W : World S σ} {p : Program S α} {s s' : σ} {t : List (Event S)} {a : α}
    (h : Runs W p s t a s') : Reaches W p s s' := by
  induction h with
  | done a s => exact .stop _ s
  | call hw _ ih => exact .call hw ih

/-! ## Programs all of whose calls are allowed -/

/-- Every call of the program satisfies `ok`, and every value it can return
satisfies `Q`, whatever answers it gets. -/
def Yields (ok : S.Call → Prop) (Q : α → Prop) : Program S α → Prop
  | done a => Q a
  | call c next => ok c ∧ ∀ r, (next r).Yields ok Q

@[simp] theorem yields_done {ok : S.Call → Prop} {Q : α → Prop} {a : α} :
    (done a : Program S α).Yields ok Q ↔ Q a := Iff.rfl

@[simp] theorem yields_call {ok : S.Call → Prop} {Q : α → Prop} {c : S.Call}
    {next : S.Answer c → Program S α} :
    (call c next).Yields ok Q ↔ ok c ∧ ∀ r, (next r).Yields ok Q := Iff.rfl

theorem Yields.mono {ok ok' : S.Call → Prop} {Q Q' : α → Prop} {p : Program S α}
    (h : p.Yields ok Q) (hok : ∀ c, ok c → ok' c) (hQ : ∀ a, Q a → Q' a) :
    p.Yields ok' Q' := by
  induction p with
  | done a => exact hQ a h
  | call c next ih => exact ⟨hok c h.1, fun r => ih r (h.2 r)⟩

theorem yields_true (p : Program S α) : p.Yields (fun _ => True) (fun _ => True) := by
  induction p with
  | done a => trivial
  | call c next ih => exact ⟨trivial, ih⟩

theorem Yields.bind {ok : S.Call → Prop} {Q : α → Prop} {Q' : β → Prop} {p : Program S α}
    {f : α → Program S β} (h : p.Yields ok Q) (hf : ∀ a, Q a → (f a).Yields ok Q') :
    (p.bind f).Yields ok Q' := by
  induction p with
  | done a => exact hf a h
  | call c next ih => exact ⟨h.1, fun r => ih r (h.2 r)⟩

theorem Yields.and {ok ok' : S.Call → Prop} {Q Q' : α → Prop} {p : Program S α}
    (h : p.Yields ok Q) (h' : p.Yields ok' Q') : p.Yields ok (fun a => Q a ∧ Q' a) := by
  induction p with
  | done a => exact ⟨h, h'⟩
  | call c next ih => exact ⟨h.1, fun r => ih r (h.2 r) (h'.2 r)⟩

/-- The loop rule: an invariant of the accumulator that every body keeps. -/
theorem Yields.foldlM {ok : S.Call → Prop} {I : β → Prop} {f : β → α → Program S β}
    {xs : List α} (hf : ∀ b, I b → ∀ x ∈ xs, (f b x).Yields ok I) :
    ∀ {b : β}, I b → (xs.foldlM f b).Yields ok I := by
  induction xs with
  | nil => exact fun hb => hb
  | cons x xs ih =>
    intro b hb
    rw [List.foldlM_cons]
    exact (hf b hb x (List.mem_cons_self ..)).bind fun b' hb' =>
      ih (fun b hb x hx => hf b hb x (List.mem_cons_of_mem _ hx)) hb'

theorem Yields.mapM {ok : S.Call → Prop} {Q : β → Prop} {f : α → Program S β} {xs : List α}
    (hf : ∀ x ∈ xs, (f x).Yields ok Q) : (xs.mapM f).Yields ok (fun ys => ∀ y ∈ ys, Q y) := by
  induction xs with
  | nil => simp
  | cons x xs ih =>
    rw [List.mapM_cons]
    refine (hf x (List.mem_cons_self ..)).bind fun y hy => ?_
    refine (ih fun x hx => hf x (List.mem_cons_of_mem _ hx)).bind fun ys hys => ?_
    exact List.forall_mem_cons.mpr ⟨hy, hys⟩

/-- An invariant that every allowed call keeps holds wherever the program is
stopped. -/
theorem Yields.reaches {W : World S σ} {ok : S.Call → Prop} {Q : α → Prop} {I : σ → Prop}
    (hI : ∀ s c r s', ok c → W s c r s' → I s → I s') {p : Program S α} (h : p.Yields ok Q)
    {s s' : σ} (hr : Reaches W p s s') (hs : I s) : I s' := by
  induction hr with
  | stop p s => exact hs
  | call hw _ ih => exact ih (h.2 _) (hI _ _ _ _ h.1 hw hs)

/-- An invariant that every allowed call keeps holds after the run. -/
theorem Yields.runs {W : World S σ} {ok : S.Call → Prop} {Q : α → Prop} {I : σ → Prop}
    (hI : ∀ s c r s', ok c → W s c r s' → I s → I s') {p : Program S α} (h : p.Yields ok Q)
    {s s' : σ} {t : List (Event S)} {a : α} (hr : Runs W p s t a s') (hs : I s) :
    Q a ∧ I s' ∧ ∀ e ∈ t, ok e.call := by
  induction hr with
  | done a s => exact ⟨h, hs, by simp⟩
  | call hw _ ih =>
    obtain ⟨hQ, hI', ht⟩ := ih (h.2 _) (hI _ _ _ _ h.1 hw hs)
    exact ⟨hQ, hI', List.forall_mem_cons.mpr ⟨h.1, ht⟩⟩

/-- What a program yields holds of each of its runs. -/
theorem Yields.calls {W : World S σ} {ok : S.Call → Prop} {Q : α → Prop} {p : Program S α}
    (h : p.Yields ok Q) {s s' : σ} {t : List (Event S)} {a : α} (hr : Runs W p s t a s') :
    Q a ∧ ∀ e ∈ t, ok e.call := by
  obtain ⟨hQ, _, ht⟩ := h.runs (I := fun _ => True) (fun _ _ _ _ _ _ => id) hr trivial
  exact ⟨hQ, ht⟩

/-! ## Calls that are programs -/

section Expand

variable {T : Signature}

/-- Put a program of other calls in the place of each call. -/
def expand (h : (c : S.Call) → Program T (S.Answer c)) : Program S α → Program T α
  | done a => done a
  | call c next => (h c).bind fun r => (next r).expand h

variable {h : (c : S.Call) → Program T (S.Answer c)}

@[simp] theorem expand_done (a : α) : (done a : Program S α).expand h = done a := rfl

@[simp] theorem expand_call (c : S.Call) (next : S.Answer c → Program S α) :
    (call c next).expand h = (h c).bind fun r => (next r).expand h := rfl

@[simp] theorem expand_bind (p : Program S α) (f : α → Program S β) :
    (p.bind f).expand h = (p.expand h).bind fun a => (f a).expand h := by
  induction p with
  | done a => rfl
  | call c next ih => simp [ih, bind_assoc]

/-- The world of the calls that stand for programs in the given one. -/
def World.through (W : World T σ) (h : (c : S.Call) → Program T (S.Answer c)) : World S σ :=
  fun s c r s' => ∃ t, Runs W (h c) s t r s'

/-- A run of the expanded program is a run of the program. -/
theorem Runs.of_expand {W : World T σ} {p : Program S α} {s s' : σ} {t : List (Event T)} {a : α}
    (hr : Runs W (p.expand h) s t a s') : ∃ u, Runs (W.through h) p s u a s' := by
  induction p generalizing s t with
  | done b =>
    obtain ⟨_, rfl, rfl⟩ := runs_done_iff.mp hr
    exact ⟨[], .done a s'⟩
  | call c next ih =>
    obtain ⟨r, s₁, t₁, t₂, _, hcall, hrest⟩ := runs_bind_iff.mp hr
    obtain ⟨u, hu⟩ := ih r hrest
    exact ⟨⟨c, r⟩ :: u, .call ⟨t₁, hcall⟩ hu⟩

end Expand

/-! ## One answer for each call -/

/-- The value that a program returns when each call always gets the same
answer. -/
def answer (f : (c : S.Call) → S.Answer c) : Program S α → α
  | done a => a
  | call c next => (next (f c)).answer f

section Answer

variable {f : (c : S.Call) → S.Answer c}

@[simp] theorem answer_done (a : α) : (done a : Program S α).answer f = a := rfl

@[simp] theorem answer_call (c : S.Call) (next : S.Answer c → Program S α) :
    (call c next).answer f = (next (f c)).answer f := rfl

@[simp] theorem answer_bind (p : Program S α) (g : α → Program S β) :
    (p.bind g).answer f = (g (p.answer f)).answer f := by
  induction p with
  | done a => rfl
  | call c next ih => exact ih (f c)

end Answer

/-! ## Two interfaces -/

section Sum

variable {T : Signature}

/-- A program of the first interface, among the calls of both. -/
def inLeft : Program S α → Program (S.sum T) α
  | done a => done a
  | call c next => call (S := S.sum T) (.inl c) fun r => (next r).inLeft

/-- A program of the second interface, among the calls of both. -/
def inRight : Program T α → Program (S.sum T) α
  | done a => done a
  | call c next => call (S := S.sum T) (.inr c) fun r => (next r).inRight

def Event.inLeft (e : Event S) : Event (S.sum T) := ⟨.inl e.call, e.answer⟩

def Event.inRight (e : Event T) : Event (S.sum T) := ⟨.inr e.call, e.answer⟩

/-- The events of the first interface. -/
def leftEvents : List (Event (S.sum T)) → List (Event S)
  | [] => []
  | ⟨.inl c, r⟩ :: t => ⟨c, r⟩ :: leftEvents t
  | ⟨.inr _, _⟩ :: t => leftEvents t

theorem leftEvents_map_inLeft (t : List (Event S)) :
    leftEvents (T := T) (t.map Event.inLeft) = t := by
  induction t with
  | nil => rfl
  | cons e t ih => exact congrArg (e :: ·) ih

theorem leftEvents_append_inRight (t : List (Event (S.sum T))) (t' : List (Event T)) :
    leftEvents (t ++ t'.map Event.inRight) = leftEvents t := by
  induction t with
  | nil =>
    induction t' with
    | nil => rfl
    | cons e t' ih => exact ih
  | cons e t ih =>
    obtain ⟨c | c, r⟩ := e
    · exact congrArg (_ :: ·) ih
    · exact ih

theorem leftEvents_append (t u : List (Event (S.sum T))) :
    leftEvents (t ++ u) = leftEvents t ++ leftEvents u := by
  induction t with
  | nil => rfl
  | cons e t ih =>
    obtain ⟨c | c, r⟩ := e
    · exact congrArg (_ :: ·) ih
    · exact ih

/-- What a world of both interfaces does on the first one. -/
def World.onLeft (W : World (S.sum T) σ) : World S σ := fun s c r s' => W s (.inl c) r s'

/-- What a world of both interfaces does on the second one. -/
def World.onRight (W : World (S.sum T) σ) : World T σ := fun s c r s' => W s (.inr c) r s'

theorem runs_of_inLeft {W : World (S.sum T) σ} {p : Program S α} {s s' : σ}
    {t : List (Event (S.sum T))} {a : α} (h : Runs W p.inLeft s t a s') :
    ∃ t₁ : List (Event S), t = t₁.map Event.inLeft ∧ Runs (World.onLeft W) p s t₁ a s' := by
  induction p generalizing s t with
  | done b =>
    obtain ⟨rfl, rfl, rfl⟩ := runs_done_iff.mp h
    exact ⟨[], rfl, .done _ _⟩
  | call c next ih =>
    obtain ⟨r, s₁, t', hw, rfl, hr⟩ := runs_call_iff.mp h
    obtain ⟨t₁, rfl, hr₁⟩ := ih r hr
    exact ⟨⟨c, r⟩ :: t₁, rfl, .call hw hr₁⟩

theorem runs_of_inRight {W : World (S.sum T) σ} {p : Program T α} {s s' : σ}
    {t : List (Event (S.sum T))} {a : α} (h : Runs W p.inRight s t a s') :
    ∃ t₁ : List (Event T), t = t₁.map Event.inRight ∧ Runs (World.onRight W) p s t₁ a s' := by
  induction p generalizing s t with
  | done b =>
    obtain ⟨rfl, rfl, rfl⟩ := runs_done_iff.mp h
    exact ⟨[], rfl, .done _ _⟩
  | call c next ih =>
    obtain ⟨r, s₁, t', hw, rfl, hr⟩ := runs_call_iff.mp h
    obtain ⟨t₁, rfl, hr₁⟩ := ih r hr
    exact ⟨⟨c, r⟩ :: t₁, rfl, .call hw hr₁⟩

end Sum

/-! ## Scripted worlds -/

/-- A world that answers every call in exactly one way. -/
abbrev Script (S : Signature) (σ : Type) := σ → (c : S.Call) → S.Answer c × σ

/-- The world of a script. -/
def Script.world (A : Script S σ) : World S σ := fun s c r s' => A s c = (r, s')

/-- Run a program against a script. -/
def eval (A : Script S σ) : Program S α → σ → α × List (Event S) × σ
  | done a, s => (a, [], s)
  | call c next, s =>
    let (a, t, s') := (next (A s c).1).eval A (A s c).2
    (a, ⟨c, (A s c).1⟩ :: t, s')

/-- Running a program against a script is a run in every world the script
stays inside of. -/
theorem eval_runs {W : World S σ} {A : Script S σ} (h : ∀ s c, W s c (A s c).1 (A s c).2)
    (p : Program S α) (s : σ) :
    Runs W p s (p.eval A s).2.1 (p.eval A s).1 (p.eval A s).2.2 := by
  induction p generalizing s with
  | done a => exact .done a s
  | call c next ih => exact .call (h s c) (ih _ _)

theorem eval_bind (A : Script S σ) (p : Program S α) (f : α → Program S β) (s : σ) :
    (p.bind f).eval A s = (((f (p.eval A s).1).eval A (p.eval A s).2.2).1,
      (p.eval A s).2.1 ++ ((f (p.eval A s).1).eval A (p.eval A s).2.2).2.1,
      ((f (p.eval A s).1).eval A (p.eval A s).2.2).2.2) := by
  induction p generalizing s with
  | done a => rfl
  | call c next ih => simp only [call_bind, eval, ih, List.cons_append]

/-- A script that answers the calls of the first interface by a function runs
its programs without the state. -/
theorem eval_inLeft {T : Signature} {A : Script (S.sum T) σ} {f : (c : S.Call) → S.Answer c}
    (hA : ∀ s c, A s (.inl c) = (f c, s)) (p : Program S α) (s : σ) :
    p.inLeft.eval A s = ((p.eval (fun u c => (f c, u)) ()).1,
      (p.eval (fun u c => (f c, u)) ()).2.1.map Event.inLeft, s) := by
  induction p generalizing s with
  | done a => rfl
  | call c next ih => simp only [inLeft, eval, hA, ih, List.map_cons, Event.inLeft]

end Program

end VirtualContributor.Lib
