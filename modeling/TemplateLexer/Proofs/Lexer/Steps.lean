import TemplateLexer.Lexer.Run

/-! Runs of the lexer, step by step. -/

set_option autoImplicit false

namespace TemplateLexer.Lexer.State

variable {strict : Bool} {state next last : State} {fault : Fault}

inductive Steps (strict : Bool) : State → State → Prop where
  | refl (state : State) : Steps strict state state
  | step {state next last : State} (left : state.rest ≠ [])
      (stepped : state.step strict = (next, none)) (later : Steps strict next last) :
      Steps strict state last

theorem run_of_rest_eq_nil (nothing : state.rest = []) : state.run strict = (state, none) := by
  rw [run, dif_pos nothing]

theorem run_of_step (left : state.rest ≠ []) (stepped : state.step strict = (next, none)) :
    state.run strict = next.run strict := by
  rw [run, dif_neg left]
  split
  · next other fault found => cases stepped.symm.trans found
  · next other found =>
    cases stepped.symm.trans found
    rfl

theorem run_of_fault (left : state.rest ≠ []) (stepped : state.step strict = (next, some fault)) :
    state.run strict = (next, some fault) := by
  rw [run, dif_neg left]
  split
  · next other fault found =>
    cases stepped.symm.trans found
    rfl
  · next other found => cases stepped.symm.trans found

theorem visits_of_rest_eq_nil (nothing : state.rest = []) : state.visits strict = [] := by
  rw [visits, dif_pos nothing]

theorem visits_of_step (left : state.rest ≠ []) (stepped : state.step strict = (next, none)) :
    state.visits strict = ⟨state.mode, next, none⟩ :: next.visits strict := by
  rw [visits, dif_neg left]
  split
  · next other fault found => cases stepped.symm.trans found
  · next other found =>
    cases stepped.symm.trans found
    rfl

theorem visits_of_fault (left : state.rest ≠ [])
    (stepped : state.step strict = (next, some fault)) :
    state.visits strict = [⟨state.mode, next, some fault⟩] := by
  rw [visits, dif_neg left]
  split
  · next other fault found =>
    cases stepped.symm.trans found
    rfl
  · next other found => cases stepped.symm.trans found

theorem visits_ne_nil (left : state.rest ≠ []) : state.visits strict ≠ [] := by
  rw [visits, dif_neg left]
  split <;> exact List.cons_ne_nil _ _

-- The last step of a run leaves the state in which the run ends.
theorem run_of_getLast?_visits {visit : Visit}
    (ends : (state.visits strict).getLast? = some visit) :
    state.run strict = (visit.state, visit.fault) := by
  fun_induction visits strict state with
  | case1 state nothing => exact nomatch ends
  | case2 state left next fault stepped =>
    cases ends
    exact run_of_fault left stepped
  | case3 state left next stepped ih =>
    rw [run_of_step left stepped]
    by_cases nothing : next.rest = []
    · rw [visits_of_rest_eq_nil nothing] at ends
      cases ends
      exact run_of_rest_eq_nil nothing
    · obtain ⟨first, later, more⟩ := List.exists_cons_of_ne_nil (visits_ne_nil nothing)
      rw [more, List.getLast?_cons_cons, ← more] at ends
      exact ih ends

namespace Steps

theorem single (left : state.rest ≠ []) (stepped : state.step strict = (next, none)) :
    Steps strict state next :=
  .step left stepped (.refl next)

theorem run_eq (steps : Steps strict state last) : state.run strict = last.run strict := by
  induction steps with
  | refl => rfl
  | step left stepped _ ih => rw [run_of_step left stepped, ih]

theorem getLast?_visits (steps : Steps strict state last) (left : last.rest ≠ []) :
    (state.visits strict).getLast? = (last.visits strict).getLast? := by
  induction steps with
  | refl => rfl
  | @step state next last more stepped later ih =>
    rw [visits_of_step more stepped, ← ih left]
    -- The first step is not the last one, since there are later visits.
    have visited : next.visits strict ≠ [] := by
      cases later with
      | refl => exact visits_ne_nil left
      | step onward => exact visits_ne_nil onward
    obtain ⟨first, visits, same⟩ := List.exists_cons_of_ne_nil visited
    rw [same, List.getLast?_cons_cons]

end Steps

end TemplateLexer.Lexer.State
