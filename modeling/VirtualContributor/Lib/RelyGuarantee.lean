import VirtualContributor.Lib.Program

/-!
# Rely-guarantee rules for call trees

Two programs that share a state interleave at their calls, and each call is
atomic.  `Ensures W R G p Q s` is the rely-guarantee judgement for one of
them: from `s`, with steps of `R` by other parties before each call and after
the last one, every call of `p` is a step of `G`, and `Q` holds when `p`
returns.

One proof serves several readings of the judgement: `Ensures.runs` for a
program that runs alone, `Ensures.trace` for what each call of a run owes to
the calls before it, and `Par.sound` for two programs in parallel.
`Par.serial` says which interleavings are runs of one program after the other.
-/

namespace VirtualContributor.Lib

namespace Program

variable {S : Signature} {α β σ : Type}

/-- The steps that other parties may take between two calls. -/
structure Interference (σ : Type) where
  step : σ → σ → Prop
  refl : ∀ s, step s s
  trans : ∀ {s₁ s₂ s₃}, step s₁ s₂ → step s₂ s₃ → step s₁ s₃

/-- Nobody else touches the state. -/
def Interference.none : Interference σ where
  step := Eq
  refl := fun _ => rfl
  trans := Eq.trans

/-- An assertion that no step of the other parties can break. -/
def Interference.Stable (R : Interference σ) (φ : σ → Prop) : Prop :=
  ∀ ⦃s s'⦄, R.step s s' → φ s → φ s'

theorem stable_none (φ : σ → Prop) : Interference.none.Stable φ := by
  rintro s s' rfl h
  exact h

theorem Interference.Stable.and {R : Interference σ} {φ ψ : σ → Prop} (h : R.Stable φ)
    (h' : R.Stable ψ) : R.Stable (fun s => φ s ∧ ψ s) :=
  fun _ _ hr hs => ⟨h hr hs.1, h' hr hs.2⟩

/-- Every call is a step of `G` and `Q` holds on return, under the
interference of `R`. -/
def Ensures (W : World S σ) (R : Interference σ) (G : World S σ) :
    Program S α → (α → σ → Prop) → σ → Prop
  | done a, Q, s => ∀ s', R.step s s' → Q a s'
  | call c next, Q, s => ∀ s₁, R.step s s₁ → ∀ r s₂, W s₁ c r s₂ →
      G s₁ c r s₂ ∧ (next r).Ensures W R G Q s₂

section Rules

variable {W : World S σ} {R : Interference σ} {G : World S σ}

/-- The judgement survives a step of the other parties. -/
theorem Ensures.interfere {p : Program S α} {Q : α → σ → Prop} {s s' : σ}
    (h : p.Ensures W R G Q s) (hr : R.step s s') : p.Ensures W R G Q s' := by
  cases p with
  | done a => exact fun s'' h' => h s'' (R.trans hr h')
  | call c next => exact fun s₁ h' => h s₁ (R.trans hr h')

theorem Ensures.mono {p : Program S α} {Q Q' : α → σ → Prop} {s : σ}
    (h : p.Ensures W R G Q s) (hQ : ∀ a s, Q a s → Q' a s) : p.Ensures W R G Q' s := by
  induction p generalizing s with
  | done a => exact fun s' hr => hQ a s' (h s' hr)
  | call c next ih =>
    intro s₁ hr r s₂ hw
    obtain ⟨hg, hn⟩ := h s₁ hr r s₂ hw
    exact ⟨hg, ih r hn⟩

theorem Ensures.and {p : Program S α} {Q Q' : α → σ → Prop} {s : σ}
    (h : p.Ensures W R G Q s) (h' : p.Ensures W R G Q' s) :
    p.Ensures W R G (fun a s => Q a s ∧ Q' a s) s := by
  induction p generalizing s with
  | done a => exact fun s' hr => ⟨h s' hr, h' s' hr⟩
  | call c next ih =>
    intro s₁ hr r s₂ hw
    exact ⟨(h s₁ hr r s₂ hw).1, ih r (h s₁ hr r s₂ hw).2 (h' s₁ hr r s₂ hw).2⟩

/-- A returned value needs a stable postcondition. -/
theorem ensures_done {Q : α → σ → Prop} {a : α} {s : σ} (hQ : R.Stable (Q a)) (h : Q a s) :
    (done a : Program S α).Ensures W R G Q s :=
  fun _ hr => hQ hr h

/-- A call made in a stable state. -/
theorem ensures_call {Q : α → σ → Prop} {φ : σ → Prop} {c : S.Call}
    {next : S.Answer c → Program S α} {s : σ} (hφ : R.Stable φ) (hs : φ s)
    (h : ∀ s r s', φ s → W s c r s' → G s c r s' ∧ (next r).Ensures W R G Q s') :
    (call c next).Ensures W R G Q s :=
  fun s₁ hr r s₂ hw => h s₁ r s₂ (hφ hr hs) hw

theorem Ensures.bind {p : Program S α} {f : α → Program S β} {Q : α → σ → Prop}
    {Q' : β → σ → Prop} {s : σ} (h : p.Ensures W R G Q s)
    (hf : ∀ a s, Q a s → (f a).Ensures W R G Q' s) : (p.bind f).Ensures W R G Q' s := by
  induction p generalizing s with
  | done a => exact hf a s (h s (R.refl s))
  | call c next ih =>
    intro s₁ hr r s₂ hw
    obtain ⟨hg, hn⟩ := h s₁ hr r s₂ hw
    exact ⟨hg, ih r hn⟩

/-- The loop rule.  The invariant may speak of the part of the list already
done, and of the part still to do through `xs = pre ++ x :: post`. -/
theorem Ensures.foldlM {f : β → α → Program S β} {xs : List α} {I : List α → β → σ → Prop}
    (hI : ∀ pre b, R.Stable (I pre b))
    (hf : ∀ pre x post b s, xs = pre ++ x :: post → I pre b s →
      (f b x).Ensures W R G (I (pre ++ [x])) s)
    {b : β} {s : σ} (h : I [] b s) : (xs.foldlM f b).Ensures W R G (I xs) s := by
  suffices key : ∀ post pre b s, xs = pre ++ post → I pre b s →
      (post.foldlM f b).Ensures W R G (I xs) s from key xs [] b s rfl h
  intro post
  induction post with
  | nil =>
    intro pre b s hxs hb
    rw [List.append_nil] at hxs
    subst hxs
    exact ensures_done (hI xs b) hb
  | cons x post ih =>
    intro pre b s hxs hb
    rw [List.foldlM_cons]
    refine (hf pre x post b s hxs hb).bind fun b' s' hb' => ih (pre ++ [x]) b' s' ?_ hb'
    rw [hxs, List.append_assoc]
    rfl

/-- The rule for a list of programs, each of which keeps `φ`. -/
theorem Ensures.mapM {f : α → Program S β} {xs : List α} {P : α → β → Prop} {φ : σ → Prop}
    (hφ : R.Stable φ)
    (hf : ∀ x ∈ xs, ∀ s, φ s → (f x).Ensures W R G (fun y s => P x y ∧ φ s) s) {s : σ}
    (hs : φ s) : (xs.mapM f).Ensures W R G (fun ys s => List.Forall₂ P xs ys ∧ φ s) s := by
  induction xs generalizing s with
  | nil => exact ensures_done (fun _ _ hr h => ⟨h.1, hφ hr h.2⟩) ⟨.nil, hs⟩
  | cons x xs ih =>
    rw [List.mapM_cons]
    refine (hf x (List.mem_cons_self ..) s hs).bind fun y s₁ ⟨hy, hs₁⟩ => ?_
    refine (ih (fun x hx => hf x (List.mem_cons_of_mem _ hx)) hs₁).bind
      fun ys s₂ ⟨hys, hs₂⟩ => ?_
    exact ensures_done (fun _ _ hr h => ⟨h.1, hφ hr h.2⟩) ⟨.cons hy hys, hs₂⟩

/-- A program whose calls all keep `φ` adds only what it returns. -/
theorem Yields.ensures {ok : S.Call → Prop} {Q : α → Prop} {φ : σ → Prop} {p : Program S α}
    (h : p.Yields ok Q) (hφ : R.Stable φ)
    (hok : ∀ s c r s', ok c → φ s → W s c r s' → G s c r s' ∧ φ s') {s : σ} (hs : φ s) :
    p.Ensures W R G (fun a s => Q a ∧ φ s) s := by
  induction p generalizing s with
  | done a => exact fun s' hr => ⟨h, hφ hr hs⟩
  | call c next ih =>
    intro s₁ hr r s₂ hw
    obtain ⟨hg, hs₂⟩ := hok s₁ c r s₂ h.1 (hφ hr hs) hw
    exact ⟨hg, ih r (h.2 r) hs₂⟩

/-- A run without interference ends in the postcondition, and each of its
events was a step of the guarantee. -/
theorem Ensures.runs {p : Program S α} {Q : α → σ → Prop} {s s' : σ} {t : List (Event S)}
    {a : α} (h : p.Ensures W R G Q s) (hr : Runs W p s t a s') :
    Q a s' ∧ ∀ e ∈ t, ∃ s₁ s₂, G s₁ e.call e.answer s₂ := by
  induction hr with
  | done a s => exact ⟨h s (R.refl s), by simp⟩
  | call hw _ ih =>
    obtain ⟨hg, hn⟩ := h _ (R.refl _) _ _ hw
    obtain ⟨hQ, ht⟩ := ih hn
    exact ⟨hQ, List.forall_mem_cons.mpr ⟨⟨_, _, hg⟩, ht⟩⟩

/-- A program without interference ends as one of its runs does. -/
theorem ensures_exists_run (p : Program S α) (s : σ) :
    p.Ensures W .none (fun _ _ _ _ => True) (fun a s' => ∃ t, Runs W p s t a s') s := by
  induction p generalizing s with
  | done a =>
    rintro _ rfl
    exact ⟨[], .done a s⟩
  | call c next ih =>
    rintro _ rfl r s₂ hw
    refine ⟨trivial, (ih r s₂).mono ?_⟩
    rintro a s' ⟨t, ht⟩
    exact ⟨⟨c, r⟩ :: t, .call hw ht⟩

end Rules

/-! ## Properties of traces -/

/-- The world that allows every answer and keeps a log of the calls. -/
def recording : World S (List (Event S)) := fun log c r log' => log' = log ++ [⟨c, r⟩]

/-- A call made with a known log. -/
theorem ensures_record {G : World S (List (Event S))} {Q : α → List (Event S) → Prop} {c : S.Call}
    {next : S.Answer c → Program S α} {log : List (Event S)}
    (hg : ∀ r, G log c r (log ++ [⟨c, r⟩]))
    (h : ∀ r, (next r).Ensures recording .none G Q (log ++ [⟨c, r⟩])) :
    (call c next).Ensures recording .none G Q log := by
  rintro _ rfl r _ rfl
  exact ⟨hg r, h r⟩

/-- A program only adds to the log. -/
theorem ensures_grows (p : Program S α) (log : List (Event S)) :
    p.Ensures recording .none (fun _ _ _ _ => True) (fun _ log' => log <+: log') log := by
  induction p generalizing log with
  | done a => exact ensures_done (stable_none _) (List.prefix_refl log)
  | call c next ih =>
    exact ensures_record (fun _ => trivial) fun r =>
      (ih r _).mono fun _ _ h => (List.prefix_append ..).trans h

/-- A judgement against the log is one about the trace of every run: each event
is a step of the guarantee from the events before it. -/
theorem Ensures.trace {G : World S (List (Event S))} {p : Program S α}
    {Q : α → List (Event S) → Prop} {log : List (Event S)}
    (h : p.Ensures recording .none G Q log) {W : World S σ} {s s' : σ} {t : List (Event S)}
    {a : α} (hr : Runs W p s t a s') :
    Q a (log ++ t) ∧ ∀ pre e post, t = pre ++ e :: post →
      G (log ++ pre) e.call e.answer (log ++ pre ++ [e]) := by
  induction hr generalizing log with
  | done a s =>
    refine ⟨?_, fun pre e post ht => by simp at ht⟩
    rw [List.append_nil]
    exact h log rfl
  | @call c next s s₁ s' r t a _ _ ih =>
    have hrec : recording log c r (log ++ [⟨c, r⟩]) := rfl
    obtain ⟨hg, hn⟩ := h log rfl r _ hrec
    obtain ⟨hQ, hsplit⟩ := ih hn
    refine ⟨by simpa using hQ, fun pre e post ht => ?_⟩
    cases pre with
    | nil =>
      obtain ⟨rfl, rfl⟩ := List.cons.inj ht
      simpa using hg
    | cons x pre =>
      obtain ⟨rfl, rfl⟩ := List.cons.inj ht
      simpa using hsplit pre e post rfl

/-! ## Two programs in parallel -/

/-- The calls of two programs in the order they were made. -/
abbrev Schedule (S : Signature) := List (Event S ⊕ Event S)

/-- `Par W p q s σ a b s'`: the interleaving `σ` of the calls of `p` and `q` on
one state, in which `p` returns `a` and `q` returns `b`. -/
inductive Par (W : World S σ) :
    Program S α → Program S β → σ → Schedule S → α → β → σ → Prop
  | done (a : α) (b : β) (s : σ) : Par W (.done a) (.done b) s [] a b s
  | left {c : S.Call} {next : S.Answer c → Program S α} {q : Program S β} {s s₁ s' : σ}
      {r : S.Answer c} {sched : Schedule S} {a : α} {b : β} :
      W s c r s₁ → Par W (next r) q s₁ sched a b s' →
      Par W (.call c next) q s (.inl ⟨c, r⟩ :: sched) a b s'
  | right {c : S.Call} {p : Program S α} {next : S.Answer c → Program S β} {s s₁ s' : σ}
      {r : S.Answer c} {sched : Schedule S} {a : α} {b : β} :
      W s c r s₁ → Par W p (next r) s₁ sched a b s' →
      Par W p (.call c next) s (.inr ⟨c, r⟩ :: sched) a b s'

section Par

variable {W : World S σ} {p : Program S α} {q : Program S β} {s s' : σ} {sched : Schedule S}
  {a : α} {b : β}

/-- Parallel composition: when each party's guarantee is within the other's
interference, both postconditions hold at the end of every interleaving. -/
theorem Par.sound {R₁ R₂ : Interference σ} {G₁ G₂ : World S σ}
    (h₁₂ : ∀ s c r s', G₁ s c r s' → R₂.step s s')
    (h₂₁ : ∀ s c r s', G₂ s c r s' → R₁.step s s')
    {Q₁ : α → σ → Prop} {Q₂ : β → σ → Prop}
    (hp : p.Ensures W R₁ G₁ Q₁ s) (hq : q.Ensures W R₂ G₂ Q₂ s)
    (h : Par W p q s sched a b s') : Q₁ a s' ∧ Q₂ b s' := by
  induction h with
  | done a b s => exact ⟨hp s (R₁.refl s), hq s (R₂.refl s)⟩
  | left hw _ ih =>
    obtain ⟨hg, hn⟩ := hp _ (R₁.refl _) _ _ hw
    exact ih hn (hq.interfere (h₁₂ _ _ _ _ hg))
  | right hw _ ih =>
    obtain ⟨hg, hn⟩ := hq _ (R₂.refl _) _ _ hw
    exact ih (hp.interfere (h₂₁ _ _ _ _ hg)) hn

theorem Par.symm (h : Par W p q s sched a b s') : Par W q p s (sched.map Sum.swap) b a s' := by
  induction h with
  | done a b s => exact .done b a s
  | left hw _ ih => exact .right hw ih
  | right hw _ ih => exact .left hw ih

/-- A call that neither reads nor changes the state. -/
def Independent (W : World S σ) (c : S.Call) : Prop :=
  ∀ s r s', W s c r s' → s' = s ∧ ∀ s'', W s'' c r s''

/-- No call of the left program that matters comes after one of the right
program. -/
def LeftFirst (free : S.Call → Prop) (sched : Schedule S) : Prop :=
  sched.Pairwise fun x y => ∀ e e', x = .inr e → y = .inl e' → free e.call ∨ free e'.call

/-- Once the left program makes independent calls only, it might as well run
in any state. -/
theorem Par.left_free {free : S.Call → Prop} (hfree : ∀ c, free c → Independent W c)
    (h : Par W p q s sched a b s') (hsched : ∀ e, .inl e ∈ sched → free e.call) :
    (∃ t₁, ∀ s'', Runs W p s'' t₁ a s'') ∧ ∃ t₂, Runs W q s t₂ b s' := by
  induction h with
  | done a b s => exact ⟨⟨[], .done a⟩, [], .done b s⟩
  | @left c next q s s₁ s' r sched a b hw _ ih =>
    obtain ⟨rfl, hany⟩ := hfree c (hsched ⟨c, r⟩ (List.mem_cons_self ..)) _ _ _ hw
    obtain ⟨⟨t₁, h₁⟩, h₂⟩ := ih fun e he => hsched e (List.mem_cons_of_mem _ he)
    exact ⟨⟨⟨c, r⟩ :: t₁, fun s'' => .call (hany s'') (h₁ s'')⟩, h₂⟩
  | right hw _ ih =>
    obtain ⟨h₁, t₂, h₂⟩ := ih fun e he => hsched e (List.mem_cons_of_mem _ he)
    exact ⟨h₁, _, .call hw h₂⟩

/-- An interleaving in which the left program is first at every call that
matters is a run of the left program followed by one of the right. -/
theorem Par.serial {free : S.Call → Prop} (hfree : ∀ c, free c → Independent W c)
    (h : Par W p q s sched a b s') (hsched : LeftFirst free sched) :
    ∃ s₁ t₁ t₂, Runs W p s t₁ a s₁ ∧ Runs W q s₁ t₂ b s' := by
  induction h with
  | done a b s => exact ⟨s, [], [], .done a s, .done b s⟩
  | left hw _ ih =>
    obtain ⟨s₁, t₁, t₂, h₁, h₂⟩ := ih (List.pairwise_cons.mp hsched).2
    exact ⟨s₁, _, t₂, .call hw h₁, h₂⟩
  | @right c p next s s₁ s' r sched a b hw hpar ih =>
    obtain ⟨hhead, htail⟩ := List.pairwise_cons.mp hsched
    by_cases hc : free c
    · -- the call can wait until the left program is done
      obtain ⟨rfl, hany⟩ := hfree c hc _ _ _ hw
      obtain ⟨s₂, t₁, t₂, h₁, h₂⟩ := ih htail
      exact ⟨s₂, t₁, ⟨c, r⟩ :: t₂, h₁, .call (hany s₂) h₂⟩
    · obtain ⟨⟨t₁, h₁⟩, t₂, h₂⟩ := Par.left_free hfree hpar fun e he =>
        (hhead (.inl e) he ⟨c, r⟩ e rfl rfl).resolve_left hc
      exact ⟨s, t₁, _, h₁ s, .call hw h₂⟩

/-! ## Scripted interleavings -/

/-- Run two programs against a script.  `true` gives the turn to the left
program and `false` to the right one; once the turns are used up the left
program is run to its end and then the right one. -/
def play (A : Script S σ) :
    List Bool → Program S α → Program S β → σ → Schedule S × α × β × σ
  | [], p, q, s =>
    let (a, t₁, s₁) := p.eval A s
    let (b, t₂, s₂) := q.eval A s₁
    (t₁.map .inl ++ t₂.map .inr, a, b, s₂)
  | true :: turns, .call c next, q, s =>
    let (sched, a, b, s') := play A turns (next (A s c).1) q (A s c).2
    (.inl ⟨c, (A s c).1⟩ :: sched, a, b, s')
  | false :: turns, p, .call c next, s =>
    let (sched, a, b, s') := play A turns p (next (A s c).1) (A s c).2
    (.inr ⟨c, (A s c).1⟩ :: sched, a, b, s')
  | true :: turns, .done a, q, s => play A turns (.done a) q s
  | false :: turns, p, .done b, s => play A turns p (.done b) s

theorem Par.of_runs {s₁ : σ} {t₁ t₂ : List (Event S)} (hp : Runs W p s t₁ a s₁)
    (hq : Runs W q s₁ t₂ b s') : Par W p q s (t₁.map .inl ++ t₂.map .inr) a b s' := by
  induction hp with
  | done a s =>
    induction hq with
    | done b s => exact .done a b s
    | call hw _ ih => exact .right hw ih
  | call hw _ ih => exact .left hw (ih hq)

/-- A scripted interleaving is one in every world the script stays inside
of. -/
theorem play_par {A : Script S σ} (h : ∀ s c, W s c (A s c).1 (A s c).2) (turns : List Bool)
    (p : Program S α) (q : Program S β) (s : σ) :
    Par W p q s (play A turns p q s).1 (play A turns p q s).2.1 (play A turns p q s).2.2.1
      (play A turns p q s).2.2.2 := by
  induction turns generalizing p q s with
  | nil => exact .of_runs (eval_runs h p s) (eval_runs h q _)
  | cons turn turns ih =>
    cases turn with
    | true =>
      cases p with
      | done a =>
        cases q with
        | done b => exact ih (.done a) (.done b) s
        | call c next => exact ih (.done a) (.call c next) s
      | call c next => exact .left (h s c) (ih _ q _)
    | false =>
      cases q with
      | done b =>
        cases p with
        | done a => exact ih (.done a) (.done b) s
        | call c next => exact ih (.call c next) (.done b) s
      | call c next => exact .right (h s c) (ih p _ _)

end Par

end Program

end VirtualContributor.Lib
