/-! Leftmost search in text, and slices of it. -/

set_option autoImplicit false

namespace TemplateLexer.Text

variable {Found : Type}

def firstFrom (look : List Char → Option Found) (passed : Nat) : List Char → Option (Nat × Found)
  | [] => (look []).map (passed, ·)
  | c :: rest =>
    match look (c :: rest) with
    | some found => some (passed, found)
    | none => firstFrom look (passed + 1) rest

def first? (look : List Char → Option Found) (text : List Char) : Option (Nat × Found) :=
  firstFrom look 0 text

theorem firstFrom_eq_map (look : List Char → Option Found) (passed : Nat) (text : List Char) :
    firstFrom look passed text =
      (firstFrom look 0 text).map fun (n, found) => (passed + n, found) := by
  induction text generalizing passed with
  | nil => cases here : look [] <;> simp [firstFrom, here]
  | cons c rest ih =>
    cases here : look (c :: rest) with
    | some found => simp [firstFrom, here]
    | none =>
      simp only [firstFrom, here, ih (passed + 1), ih (0 + 1), Option.map_map]
      congr 1
      funext ⟨n, found⟩
      simp [Nat.add_assoc]

theorem first?_cons (look : List Char → Option Found) (c : Char) (rest : List Char) :
    first? look (c :: rest) =
      match look (c :: rest) with
      | some found => some (0, found)
      | none => (first? look rest).map fun (n, found) => (n + 1, found) := by
  rw [first?, firstFrom]
  cases look (c :: rest) with
  | some found => rfl
  | none =>
    simp only [firstFrom_eq_map look (0 + 1) rest, first?]
    congr 1
    funext ⟨n, found⟩
    simp [Nat.add_comm]

-- The search stops at the first suffix where there is something to find.
theorem first?_eq_some_iff {look : List Char → Option Found} {text : List Char} {n : Nat}
    {found : Found} :
    first? look text = some (n, found) ↔
      n ≤ text.length ∧ look (text.drop n) = some found ∧ ∀ m < n, look (text.drop m) = none := by
  induction text generalizing n with
  | nil =>
    cases n with
    | zero => cases here : look [] <;> simp [first?, firstFrom, here]
    | succ n => cases here : look [] <;> simp [first?, firstFrom, here]
  | cons c rest ih =>
    rw [first?_cons]
    cases here : look (c :: rest) with
    | some other =>
      cases n with
      | zero => simp [here]
      | succ n =>
        constructor
        · intro found
          simp at found
        · intro ⟨_, _, before⟩
          have := before 0 (Nat.succ_pos n)
          simp [here] at this
    | none =>
      cases n with
      | zero => simp [here]
      | succ n =>
        have shift :
            (first? look rest).map (fun (n, found) => (n + 1, found)) = some (n + 1, found) ↔
              first? look rest = some (n, found) := by
          simp only [Option.map_eq_some_iff, Prod.mk.injEq, Nat.add_right_cancel_iff]
          constructor
          · rintro ⟨⟨_, _⟩, there, rfl, rfl⟩
            exact there
          · exact fun there => ⟨_, there, rfl, rfl⟩
        rw [shift, ih]
        simp only [List.length_cons, Nat.add_le_add_iff_right, List.drop_succ_cons]
        constructor
        · intro ⟨inside, there, before⟩
          refine ⟨inside, there, fun m less => ?_⟩
          cases m with
          | zero => simpa using here
          | succ m => simpa using before m (Nat.lt_of_succ_lt_succ less)
        · intro ⟨inside, there, before⟩
          exact ⟨inside, there, fun m less => by simpa using before (m + 1) (Nat.succ_lt_succ less)⟩

theorem first?_eq_none_iff {look : List Char → Option Found} {text : List Char} :
    first? look text = none ↔ ∀ m ≤ text.length, look (text.drop m) = none := by
  induction text with
  | nil => simp [first?, firstFrom]
  | cons c rest ih =>
    rw [first?_cons]
    cases here : look (c :: rest) with
    | some found =>
      simp only [reduceCtorEq, false_iff]
      intro nothing
      have := nothing 0 (Nat.zero_le _)
      simp [here] at this
    | none =>
      simp only [Option.map_eq_none_iff, ih, List.length_cons]
      constructor
      · intro nothing m inside
        cases m with
        | zero => simpa using here
        | succ m => simpa using nothing m (Nat.le_of_succ_le_succ inside)
      · intro nothing m inside
        simpa using nothing (m + 1) (Nat.succ_le_succ inside)

def startsWith (marker text : List Char) : Bool :=
  marker.isPrefixOf text

def indexOf? (marker text : List Char) : Option Nat :=
  (first? (fun rest => if startsWith marker rest then some () else none) text).map Prod.fst

theorem startsWith_iff {marker text : List Char} :
    startsWith marker text = true ↔ ∃ rest, text = marker ++ rest := by
  simp only [startsWith, List.isPrefixOf_iff_prefix]
  exact ⟨fun ⟨rest, same⟩ => ⟨rest, same.symm⟩, fun ⟨rest, same⟩ => ⟨rest, same.symm⟩⟩

theorem indexOf?_eq_some_iff {marker text : List Char} {n : Nat} :
    indexOf? marker text = some n ↔
      n ≤ text.length ∧ startsWith marker (text.drop n) ∧
        ∀ m < n, startsWith marker (text.drop m) = false := by
  have found (rest : List Char) :
      (if startsWith marker rest then some () else none) = some () ↔ startsWith marker rest := by
    cases startsWith marker rest <;> simp
  have missed (rest : List Char) :
      (if startsWith marker rest then some () else none) = none ↔
        startsWith marker rest = false := by
    cases startsWith marker rest <;> simp
  have only : indexOf? marker text = some n ↔
      first? (fun rest => if startsWith marker rest then some () else none) text =
        some (n, ()) := by
    simp only [indexOf?, Option.map_eq_some_iff]
    constructor
    · rintro ⟨⟨_, _⟩, there, rfl⟩
      exact there
    · exact fun there => ⟨_, there, rfl⟩
  rw [only, first?_eq_some_iff]
  simp only [found, missed]

/-- The characters from `start` up to `stop`; none if `stop` lies before `start`. -/
def slice (text : List Char) (start stop : Nat) : List Char :=
  (text.drop start).take (stop - start)

/-- What is read from an offset on. An offset below zero reads the end of the text and then
the text from its beginning; none if the text is too short for that. -/
def readingFrom? (text : List Char) (start : Int) : Option (List Char) :=
  if 0 ≤ start then some (text.drop start.toNat)
  else if start.natAbs ≤ text.length then some (text.drop (text.length - start.natAbs) ++ text)
  else none

end TemplateLexer.Text
