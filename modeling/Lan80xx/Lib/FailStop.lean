import Mathlib.Data.List.Basic

/-!
# Steps that have to stop at a failure

A list of irreversible steps is carried out one after the other. A step that does not fit is refused and ends the run;
any other one adds entries to a journal, of which all but the last succeeded. After its last entry the run goes on when
that succeeded, and also when its failure goes unheeded. `Run.stops_iff` says when such a run is fail-stop.
-/

namespace FailStop

variable {W E R : Type} (fits : W → Prop) (good unheeded : E → Prop) (request : E → R) (requests : W → List R)

/-- A run: its steps, whether it came to its end, and the entries it added. -/
inductive Run : List W → Bool → List E → Prop
  | nil : Run [] true []
  | refuse {w : W} {ws : List W} : ¬fits w → Run (w :: ws) false []
  | stop {w : W} {ws : List W} {pre : List E} {e : E} : fits w → (∀ x ∈ pre, good x) → ¬good e →
      ¬unheeded e → Run (w :: ws) false (pre ++ [e])
  | pass {w : W} {ws : List W} {pre : List E} {e : E} {r : Bool} {new : List E} : fits w → (∀ x ∈ pre, good x) → good e →
      (pre ++ [e]).map request = requests w → Run ws r new → Run (w :: ws) r (pre ++ e :: new)
  | ignore {w : W} {ws : List W} {pre : List E} {e : E} {r : Bool} {new : List E} : fits w → (∀ x ∈ pre, good x) →
      ¬good e → unheeded e → Run ws r new → Run (w :: ws) r (pre ++ e :: new)

/-- Nothing is done after a failure, and the run comes to its end only when every step was carried out. -/
structure Stops (ws : List W) (r : Bool) (new : List E) : Prop where
  order : ∀ pre e post, new = pre ++ e :: post → ¬good e → post = []
  complete : r = true → (∀ e ∈ new, good e) ∧ new.map request = ws.flatMap requests

variable {fits good unheeded request requests} {ws ws' : List W} {r : Bool} {new new' : List E}

theorem Run.append (h : Run fits good unheeded request requests ws true new)
    (h' : Run fits good unheeded request requests ws' r new') :
    Run fits good unheeded request requests (ws ++ ws') r (new ++ new') := by
  generalize hb : true = b at h
  induction h with
  | nil => exact h'
  | refuse hw => cases hb
  | stop hw hpre he hu => cases hb
  | pass hw hpre he hreq _ ih =>
    rw [List.append_assoc]
    exact .pass hw hpre he hreq (ih hb)
  | ignore hw hpre he hu _ ih =>
    rw [List.append_assoc]
    exact .ignore hw hpre he hu (ih hb)

/-- A run whose first step adds one entry, its failure. -/
theorem Run.stop_first {w : W} {e : E} (hw : fits w) (he : ¬good e) (hu : ¬unheeded e) :
    Run fits good unheeded request requests (w :: ws) false [e] := by
  have hpre : ∀ x ∈ ([] : List E), good x := fun _ hx => absurd hx List.not_mem_nil
  exact Run.stop hw hpre he hu

/-- What follows a run that ended early is not begun. -/
theorem Run.append_false (h : Run fits good unheeded request requests ws false new) :
    Run fits good unheeded request requests (ws ++ ws') false new := by
  generalize hb : false = b at h
  induction h with
  | nil => cases hb
  | refuse hw => exact .refuse hw
  | stop hw hpre he hu => exact .stop hw hpre he hu
  | pass hw hpre he hreq _ ih => exact .pass hw hpre he hreq (ih hb)
  | ignore hw hpre he hu _ ih => exact .ignore hw hpre he hu (ih hb)

/-- Where a split of the entries can fall. -/
theorem split_cases {pre pre' post : List E} {e e' : E} (h : pre' ++ e' :: new = pre ++ e :: post) :
    e ∈ pre' ∨ (e = e' ∧ post = new) ∨ ∃ mid, new = mid ++ e :: post := by
  rcases List.append_eq_append_iff.mp h with ⟨mid, -, hmid⟩ | ⟨mid, hpre, hmid⟩
  · cases mid with
    | nil =>
      obtain ⟨rfl, rfl⟩ := List.cons.inj hmid
      exact Or.inr (Or.inl ⟨rfl, rfl⟩)
    | cons x mid => exact Or.inr (Or.inr ⟨mid, (List.cons.inj hmid).2⟩)
  · cases mid with
    | nil =>
      obtain ⟨rfl, rfl⟩ := List.cons.inj hmid
      exact Or.inr (Or.inl ⟨rfl, rfl⟩)
    | cons x mid =>
      obtain ⟨rfl, -⟩ := List.cons.inj hmid
      exact Or.inl (hpre ▸ List.mem_append_right _ List.mem_cons_self)

/-- A run adds nothing only when it has no steps or its first step is refused. -/
theorem Run.of_nil (h : Run fits good unheeded request requests ws r []) :
    (ws = [] ∧ r = true) ∨ ∃ w ∈ ws, ¬fits w ∧ r = false := by
  generalize hl : ([] : List E) = l at h
  cases h with
  | nil => exact Or.inl ⟨rfl, rfl⟩
  | refuse hw => exact Or.inr ⟨_, List.mem_cons_self, hw, rfl⟩
  | stop => exact absurd hl (by simp)
  | pass => exact absurd hl (by simp)
  | ignore => exact absurd hl (by simp)

/-- A run is fail-stop exactly when no failure goes unheeded, but for one that the refusal of the next step ends. -/
theorem Run.stops_iff (h : Run fits good unheeded request requests ws r new) (hu : ∀ e, unheeded e → ¬good e) :
    Stops good request requests ws r new ↔
      ∀ pre e post, new = pre ++ e :: post → unheeded e → post = [] ∧ ∃ w ∈ ws, ¬fits w := by
  induction h with
  | nil => exact iff_of_true ⟨fun pre e post hl => by simp at hl, fun _ => by simp⟩ fun pre e post hl => by simp at hl
  | refuse hw =>
    exact iff_of_true ⟨fun pre e post hl => by simp at hl, fun hr => by cases hr⟩ fun pre e post hl => by simp at hl
  | @stop w ws pre₀ e₀ hw hpre he hne =>
    refine iff_of_true ⟨fun pre e post hl hbad => ?_, fun hr => by cases hr⟩ fun pre e post hl hbad => ?_
    · rcases split_cases hl with hmem | ⟨-, hpost⟩ | ⟨mid, hmid⟩
      · exact absurd (hpre e hmem) hbad
      · exact hpost
      · simp at hmid
    · rcases split_cases hl with hmem | ⟨rfl, -⟩ | ⟨mid, hmid⟩
      · exact absurd (hpre e hmem) (hu e hbad)
      · exact absurd hbad hne
      · simp at hmid
  | @pass w ws pre₀ e₀ r new hw hpre he hreq _ ih =>
    have hhead : (pre₀ ++ e₀ :: new).map request = requests w ++ new.map request := by
      rw [← hreq]
      simp
    have hsplit : ∀ {pre e post}, new = pre ++ e :: post → pre₀ ++ e₀ :: new = (pre₀ ++ e₀ :: pre) ++ e :: post := by
      rintro pre e post rfl
      simp
    -- an entry that is not good lies in the rest of the run
    have hrest : ∀ {pre e post}, pre₀ ++ e₀ :: new = pre ++ e :: post → ¬good e → ∃ mid, new = mid ++ e :: post := by
      intro pre e post hl hbad
      rcases split_cases hl with hmem | ⟨rfl, -⟩ | hmid
      · exact absurd (hpre e hmem) hbad
      · exact absurd he hbad
      · exact hmid
    have hmisfit : (∃ w' ∈ w :: ws, ¬fits w') ↔ ∃ w' ∈ ws, ¬fits w' := by
      simp only [List.mem_cons, exists_eq_or_imp]
      exact or_iff_right (not_not_intro hw)
    constructor
    · intro hs pre e post hl hbad
      obtain ⟨mid, hmid⟩ := hrest hl (hu e hbad)
      rw [hmisfit]
      refine ih.mp ⟨fun pre e post hl hbad => hs.order _ e post (hsplit hl) hbad, fun hr => ?_⟩ mid e post hmid hbad
      obtain ⟨hgood, hall⟩ := hs.complete hr
      rw [hhead, List.flatMap_cons] at hall
      exact ⟨fun e he => hgood e (List.mem_append_right _ (List.mem_cons_of_mem _ he)), List.append_cancel_left hall⟩
    · intro hc
      have hs := ih.mpr fun pre e post hl hbad => (hc _ e post (hsplit hl) hbad).imp_right hmisfit.mp
      refine ⟨fun pre e post hl hbad => ?_, fun hr => ?_⟩
      · obtain ⟨mid, hmid⟩ := hrest hl hbad
        exact hs.order mid e post hmid hbad
      · obtain ⟨hgood, hall⟩ := hs.complete hr
        refine ⟨fun e he' => ?_, by rw [hhead, List.flatMap_cons, hall]⟩
        rcases List.mem_append.mp he' with hm | hm
        · exact hpre e hm
        · rcases List.mem_cons.mp hm with rfl | hm
          · exact he
          · exact hgood e hm
  | @ignore w ws pre₀ e₀ r new hw hpre he hne hrun _ =>
    cases new with
    | nil =>
      rcases hrun.of_nil with ⟨rfl, rfl⟩ | ⟨w', hw', hfit, rfl⟩
      · refine iff_of_false (fun hs => ?_) fun hc => ?_
        · exact he ((hs.complete rfl).1 e₀ (List.mem_append_right _ List.mem_cons_self))
        · obtain ⟨w', hw', hfit⟩ := (hc pre₀ e₀ [] rfl hne).2
          rw [List.mem_singleton.mp hw'] at hfit
          exact hfit hw
      · refine iff_of_true ⟨fun pre e post hl hbad => ?_, fun hr => by cases hr⟩ fun pre e post hl hbad => ?_
        · rcases split_cases hl with hmem | ⟨-, hpost⟩ | ⟨mid, hmid⟩
          · exact absurd (hpre e hmem) hbad
          · exact hpost
          · simp at hmid
        · rcases split_cases hl with hmem | ⟨-, hpost⟩ | ⟨mid, hmid⟩
          · exact absurd (hpre e hmem) (hu e hbad)
          · exact ⟨hpost, w', List.mem_cons_of_mem _ hw', hfit⟩
          · simp at hmid
    | cons x new =>
      refine iff_of_false (fun hs => ?_) fun hc => ?_
      · exact absurd (hs.order pre₀ e₀ (x :: new) rfl he) (List.cons_ne_nil _ _)
      · exact absurd (hc pre₀ e₀ (x :: new) rfl hne).1 (List.cons_ne_nil _ _)

end FailStop
