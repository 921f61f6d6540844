import TemplateLexer.Proofs.Lexer.Regions
import TemplateLexer.Report

/-! The lexer called again on what an earlier call left. A fault is met where it was met before, and
by then nothing is left to be done on the way to it. -/

set_option autoImplicit false

namespace TemplateLexer.Lexer.State

variable {strict : Bool} {state next : State} {fault : Fault}

theorem takeText_zero (keeps : state.trimNext = false) : state.takeText 0 = state := by
  obtain ⟨offset, rest, mode, emitted, trimNext⟩ := state
  cases keeps
  rfl

-- The text in front of the braces has been consumed, and the flag that could trim it is gone.
theorem textStep_again (mode : state.mode = .text)
    (failed : state.textStep = (next, some fault)) :
    next.rest ≠ [] ∧ next.step strict = (next, some fault) := by
  cases found : Text.indexOf? ['{', '{'] state.rest with
  | none => cases (textStep_of_none found).symm.trans failed
  | some n =>
    cases read : RawBlock.read (state.rest.drop n) with
    | found block => cases (textStep_found found read).symm.trans failed
    | absent => cases (textStep_absent found read).symm.trans failed
    | unclosed =>
      cases (textStep_unclosed found read).symm.trans failed
      have starts := (Text.indexOf?_eq_some_iff_isPrefix.mp found).2.1
      have here : Text.indexOf? ['{', '{'] (state.takeText n).rest = some 0 :=
        Text.indexOf?_eq_some_iff_isPrefix.mpr ⟨Nat.zero_le _, starts, nofun⟩
      have kept : (state.takeText n).mode = .text := mode
      refine ⟨Region.drop_ne_nil found, ?_⟩
      rw [step, kept]
      exact (textStep_unclosed here read).trans (by rw [takeText_zero rfl])

theorem tagStep_again (failed : state.tagStep = (next, some fault)) : next = state := by
  cases closed : Tag.cuts? state.rest with
  | none =>
    rw [tagStep_unclosed closed] at failed
    exact (congrArg Prod.fst failed).symm
  | some cuts => cases (tagStep_closed rfl closed).symm.trans failed

theorem commentStep_again (failed : state.commentStep strict = (next, some fault)) :
    next = state := by
  cases found : Text.indexOf? ['#', '}', '}'] (state.rest.drop 3) with
  | some length => cases (commentStep_closed found).symm.trans failed
  | none =>
    cases strict with
    | true =>
      rw [commentStep_strict found] at failed
      exact (congrArg Prod.fst failed).symm
    | false => cases (commentStep_permissive found).symm.trans failed

/-- A step that meets a fault leaves a state in which it would do nothing but meet it again. -/
theorem step_again (left : state.rest ≠ []) (failed : state.step strict = (next, some fault)) :
    next.rest ≠ [] ∧ next.step strict = (next, some fault) := by
  have stepped := failed
  cases mode : state.mode with
  | text =>
    rw [step, mode] at stepped
    exact textStep_again mode stepped
  | tag =>
    rw [step, mode] at stepped
    obtain rfl := tagStep_again stepped
    exact ⟨left, failed⟩
  | comment =>
    rw [step, mode] at stepped
    obtain rfl := commentStep_again stepped
    exact ⟨left, failed⟩

theorem run_again (strict : Bool) (state : State) :
    (state.run strict).1.run strict = state.run strict := by
  fun_induction run strict state with
  | case1 state nothing => exact run_of_rest_eq_nil nothing
  | case2 state left next fault stepped =>
    obtain ⟨more, again⟩ := step_again left stepped
    exact run_of_fault more again
  | case3 state left next stepped ih => exact ih

def afterCalls (strict : Bool) (source : List Char) : Nat → State
  | 0 => start source
  | calls + 1 => ((afterCalls strict source calls).run strict).1

def outcome (strict : Bool) (source filename : List Char) (state : State) :
    Except (Fault × Position × List Char) (List (Token Position)) :=
  match state.run strict with
  | (ended, none) => .ok (ended.tokens.map (Token.locate (LineIndex.ofText source)))
  | (ended, some fault) =>
    .error (fault, (LineIndex.ofText source).position ended.offset,
      (fault.report source ended.offset).render filename)

theorem run_afterCalls (strict : Bool) (source : List Char) (calls : Nat) :
    (afterCalls strict source calls).run strict = (start source).run strict := by
  induction calls with
  | zero => rfl
  | succ calls ih => rw [afterCalls, run_again, ih]

/-- Every call gives what the first one gives, and leaves what that one leaves. -/
theorem outcome_afterCalls (strict : Bool) (source filename : List Char) (calls : Nat) :
    (afterCalls strict source calls).outcome strict source filename =
      (start source).outcome strict source filename ∧
    afterCalls strict source (calls + 1) = afterCalls strict source 1 := by
  have same := run_afterCalls strict source calls
  constructor
  · rw [outcome, outcome, same]
  · rw [afterCalls, afterCalls, same]
    rfl

end TemplateLexer.Lexer.State
