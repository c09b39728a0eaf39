import VirtualContributor.Lib.Checks
import VirtualContributor.Lib.JsonRoundTrip

/-!
# JSON texts that begin with a brace

A scan of such a text is inside one object until it is done (`Scan.Rooted`), so
only an object can come out (`isObj_of_loads`), and of two beginnings of a text
at most one is read (`space_of_loads_append`).
-/

namespace VirtualContributor.Lib

variable {F : JsonFloats}

/-! ## Rooted scans -/

def Frame.isObject : Frame → Bool
  | .array _ => false
  | _ => true

/-- The outermost of what is open is an object. -/
def RootedFrames (frames : List Frame) : Prop :=
  ∃ frame, frames.getLast? = some frame ∧ frame.isObject = true

/-- What is read is an object. -/
def Scan.Rooted : Scan → Prop
  | .reading _ frames => RootedFrames frames
  | .done value => value.isObj = true

theorem RootedFrames.not_nil : ¬ RootedFrames [] := nofun

theorem RootedFrames.cons {frames : List Frame} (h : RootedFrames frames) (frame : Frame) :
    RootedFrames (frame :: frames) := by
  obtain ⟨last, hlast, hobject⟩ := h
  refine ⟨last, ?_, hobject⟩
  rw [List.getLast?_cons, hlast]
  rfl

/-- What is around the innermost frame is rooted, or there is nothing. -/
theorem RootedFrames.tail {frame : Frame} {frames : List Frame}
    (h : RootedFrames (frame :: frames)) :
    frames = [] ∧ frame.isObject = true ∨ RootedFrames frames := by
  obtain ⟨last, hlast, hobject⟩ := h
  cases frames with
  | nil =>
    obtain rfl : frame = last := Option.some.inj hlast
    exact .inl ⟨rfl, hobject⟩
  | cons next frames => exact .inr ⟨last, hlast, hobject⟩

theorem RootedFrames.replace {frame other : Frame} {frames : List Frame}
    (h : RootedFrames (frame :: frames)) (hobject : frame.isObject = other.isObject) :
    RootedFrames (other :: frames) := by
  cases h.tail with
  | inl hnil =>
    rw [hnil.1]
    exact ⟨other, rfl, hobject ▸ hnil.2⟩
  | inr hframes => exact hframes.cons other

theorem complete_rooted {value : Json} {frames : List Frame} {scan : Scan}
    (h : RootedFrames frames) (hscan : complete value frames = .ok scan) : scan.Rooted := by
  cases frames with
  | nil => exact absurd h RootedFrames.not_nil
  | cons frame frames =>
    cases frame with
    | object fields => cases hscan
    | array items =>
      cases hscan
      exact h.replace rfl
    | entry fields key =>
      cases hscan
      exact h.replace rfl

/-- The end of an array or an object. -/
theorem complete_tail_rooted {value : Json} {frame : Frame} {frames : List Frame} {scan : Scan}
    (h : RootedFrames (frame :: frames)) (hvalue : frame.isObject = true → value.isObj = true)
    (hscan : complete value frames = .ok scan) : scan.Rooted := by
  cases h.tail with
  | inl hnil =>
    rw [hnil.1] at hscan
    cases hscan
    exact hvalue hnil.2
  | inr hframes => exact complete_rooted hframes hscan

theorem beginValue_rooted {frames : List Frame} {c : Char} {scan : Scan}
    (h : RootedFrames frames) (hscan : beginValue F frames c = .ok scan) : scan.Rooted := by
  unfold beginValue at hscan
  split at hscan
  all_goals try (cases hscan; first | exact h | exact h.cons _)
  split at hscan
  · cases hscan
    exact h
  · cases hscan

theorem afterValue_rooted {frames : List Frame} {c : Char} {scan : Scan}
    (h : RootedFrames frames) (hscan : afterValue frames c = .ok scan) : scan.Rooted := by
  unfold afterValue at hscan
  split at hscan
  · cases hscan
    exact h
  · split at hscan
    · split at hscan
      · cases hscan
        exact h
      · split at hscan
        · exact complete_tail_rooted h nofun hscan
        · cases hscan
    · split at hscan
      · cases hscan
        exact h
      · split at hscan
        · exact complete_tail_rooted h (fun _ => rfl) hscan
        · cases hscan
    · cases hscan

theorem endString_rooted {isKey : Bool} {units : List Nat} {frames : List Frame} {scan : Scan}
    (h : RootedFrames frames) (hscan : endString isKey units frames = .ok scan) :
    scan.Rooted := by
  unfold endString at hscan
  split at hscan
  · split at hscan
    · cases hscan
      exact h.replace rfl
    · cases hscan
  · exact complete_rooted h hscan

theorem stepString_rooted {isKey : Bool} {units : List Nat} {frames : List Frame} {c : Char}
    {state : StringState} {scan : Scan} (h : RootedFrames frames)
    (hscan : stepString isKey units frames c state = .ok scan) : scan.Rooted := by
  unfold stepString at hscan
  split at hscan
  · split at hscan
    · exact endString_rooted h hscan
    · split at hscan
      · cases hscan
        exact h
      · split at hscan <;> cases hscan
        exact h
  · split at hscan
    · cases hscan
      exact h
    · split at hscan <;> cases hscan
      exact h
  · split at hscan
    · cases hscan
    · split at hscan <;> cases hscan <;> exact h

theorem Scan.step_rooted {scan next : Scan} {c : Char} (h : scan.Rooted)
    (hnext : scan.step F c = .ok next) : next.Rooted := by
  cases scan with
  | done value =>
    simp only [step] at hnext
    split at hnext <;> cases hnext
    exact h
  | reading mode frames =>
    have hframes : RootedFrames frames := h
    cases mode with
    | value =>
      simp only [step] at hnext
      split at hnext
      · cases hnext
        exact h
      · exact beginValue_rooted hframes hnext
    | firstItem =>
      simp only [step] at hnext
      split at hnext
      · cases hnext
        exact h
      · split at hnext
        · split at hnext
          · exact complete_tail_rooted hframes (fun h => by cases h) hnext
          · cases hnext
        · exact beginValue_rooted hframes hnext
    | firstKey =>
      simp only [step] at hnext
      split at hnext
      · cases hnext
        exact h
      · split at hnext
        · split at hnext
          · exact complete_tail_rooted hframes (fun _ => rfl) hnext
          · cases hnext
        · unfold beginKey at hnext
          split at hnext <;> cases hnext
          exact h
    | key =>
      simp only [step, beginKey] at hnext
      split at hnext
      · cases hnext
        exact h
      · split at hnext <;> cases hnext
        exact h
    | colon =>
      simp only [step] at hnext
      split at hnext
      · cases hnext
        exact h
      · split at hnext <;> cases hnext
        exact h
    | after => exact afterValue_rooted hframes hnext
    | string isKey units state => exact stepString_rooted hframes hnext
    | literal rest value =>
      simp only [step] at hnext
      split at hnext
      · cases hnext
      · split at hnext
        · exact complete_rooted hframes hnext
        · cases hnext
      · split at hnext <;> cases hnext
        exact h
    | number text state =>
      simp only [step] at hnext
      split at hnext
      · cases hnext
        exact h
      · split at hnext
        · cases hnext
          exact h
        · obtain ⟨value, -, hmore⟩ := bind_eq_ok.mp hnext
          cases frames with
          | nil => exact absurd hframes RootedFrames.not_nil
          | cons frame frames =>
            obtain ⟨done, hdone, hafter⟩ := bind_eq_ok.mp hmore
            cases done with
            | reading mode frames => exact afterValue_rooted (complete_rooted hframes hdone) hafter
            | done value => cases hafter

theorem Scan.run_rooted {scan next : Scan} {text : List Char} (h : scan.Rooted)
    (hnext : scan.run F text = .ok next) : next.Rooted := by
  induction text generalizing scan with
  | nil =>
    cases hnext
    exact h
  | cons c text ih =>
    rw [run_cons] at hnext
    obtain ⟨middle, hmiddle, hrest⟩ := bind_eq_ok.mp hnext
    exact ih (step_rooted h hmiddle) hrest

theorem Scan.run_brace_rooted {rest : List Char} {scan : Scan}
    (h : (Scan.reading .value []).run F ('{' :: rest) = .ok scan) : scan.Rooted := by
  have hopen : (Scan.reading .value []).step F '{' =
      .ok (.reading .firstKey [.object []]) := rfl
  have hrooted : (Scan.reading .firstKey [.object []]).Rooted := ⟨.object [], rfl, rfl⟩
  rw [run_cons_of_step hopen] at h
  exact run_rooted hrooted h

/-! ## Reading -/

/-- A text that begins with a brace is read when its object is complete. -/
theorem run_of_loads {rest : List Char} {value : Json}
    (h : loads F (String.ofList ('{' :: rest)) = .ok value) :
    (Scan.reading .value []).run F ('{' :: rest) = .ok (.done value) := by
  rw [loads, String.toList_ofList] at h
  obtain ⟨scan, hscan, hfinish⟩ := bind_eq_ok.mp h
  have hrooted := Scan.run_brace_rooted hscan
  cases scan with
  | done found =>
    cases hfinish
    exact hscan
  | reading mode frames =>
    cases frames with
    | nil => exact absurd hrooted RootedFrames.not_nil
    | cons frame frames =>
      cases mode with
      | number text state =>
        obtain ⟨found, -, hfound⟩ := bind_eq_ok.mp hfinish
        cases hfound
      | _ => cases hfinish

/-- What a text that begins with a brace is read as is an object. -/
theorem isObj_of_loads {rest : List Char} {value : Json}
    (h : loads F (String.ofList ('{' :: rest)) = .ok value) : value.isObj = true :=
  Scan.run_brace_rooted (run_of_loads h)

theorem Scan.space_of_run_done {value : Json} {text : List Char} {scan : Scan}
    (h : (Scan.done value).run F text = .ok scan) : ∀ c ∈ text, isJsonSpace c = true := by
  induction text with
  | nil => exact nofun
  | cons c text ih =>
    rw [run_cons] at h
    obtain ⟨next, hnext, hrest⟩ := bind_eq_ok.mp h
    simp only [step] at hnext
    split at hnext <;> cases hnext
    exact List.forall_mem_cons.mpr ⟨by assumption, ih hrest⟩

/-- Of the beginnings of a text that begins with a brace at most one is read,
but for blanks at the end. -/
theorem space_of_loads_append {rest more : List Char} {value other : Json}
    (h : loads F (String.ofList ('{' :: rest)) = .ok value)
    (hmore : loads F (String.ofList ('{' :: rest ++ more)) = .ok other) :
    ∀ c ∈ more, isJsonSpace c = true := by
  have hrun : (Scan.reading .value []).run F ('{' :: rest ++ more) = .ok (.done other) :=
    run_of_loads hmore
  rw [Scan.run_append_of_run (run_of_loads h)] at hrun
  exact Scan.space_of_run_done hrun

end VirtualContributor.Lib
