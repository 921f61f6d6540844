/-! Offsets as lines and columns. Lines end at a line feed and at nothing else;
lines and columns count from one. -/

set_option autoImplicit false

namespace TemplateLexer

structure Position where
  line : Int
  column : Int
  offset : Int
  deriving DecidableEq, Repr

structure LineIndex where
  starts : Array Nat

namespace LineIndex

def laterStarts (offset : Nat) : List Char → List Nat
  | [] => []
  | c :: rest =>
    if c = '\n' then (offset + 1) :: laterStarts (offset + 1) rest
    else laterStarts (offset + 1) rest

def ofText (text : List Char) : LineIndex :=
  ⟨(0 :: laterStarts 0 text).toArray⟩

/-- How many lines begin at or before `offset`, when all those before the `low`th do
and none from the `high`th on. -/
def countUpTo (index : LineIndex) (offset : Int) (low high : Nat) : Nat :=
  if low < high then
    let middle := (low + high) / 2
    if offset < (index.starts.getD middle 0 : Nat) then index.countUpTo offset low middle
    else index.countUpTo offset (middle + 1) high
  else low
termination_by high - low
decreasing_by all_goals omega

/-- The start of the line with this number. There is no line zero: what lies in front of
the text is measured from the last line. -/
def lineStart (index : LineIndex) : Nat → Nat
  | 0 => index.starts.back?.getD 0
  | line + 1 => index.starts.getD line 0

def position (index : LineIndex) (offset : Int) : Position :=
  let line := index.countUpTo offset 0 index.starts.size
  ⟨line, offset - index.lineStart line + 1, offset⟩

@[simp] theorem offset_position (index : LineIndex) (offset : Int) :
    (index.position offset).offset = offset :=
  rfl

theorem laterStarts_sorted (offset : Nat) (text : List Char) :
    (offset :: laterStarts offset text).Pairwise (· < ·) := by
  induction text generalizing offset with
  | nil => simp [laterStarts]
  | cons c rest ih =>
    have later := ih (offset + 1)
    rw [List.pairwise_cons] at later
    by_cases feed : c = '\n'
    · subst feed
      simp only [laterStarts, if_true, List.pairwise_cons, List.mem_cons]
      refine ⟨?_, later.1, later.2⟩
      rintro start (rfl | member)
      · exact Nat.lt_succ_self offset
      · exact Nat.lt_of_succ_lt (later.1 start member)
    · rw [laterStarts, if_neg feed, List.pairwise_cons]
      exact ⟨fun start member => Nat.lt_of_succ_lt (later.1 start member), later.2⟩

end LineIndex

end TemplateLexer
