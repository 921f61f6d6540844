import TemplateLexer.Proofs.Text.Occurrence
import TemplateLexer.Proofs.Text.Trimming
import TemplateLexer.RawBlock

/-! Markers of raw blocks: how they are spelled, and that braces cannot begin inside one. So a
block is read the same whatever follows it. -/

set_option autoImplicit false

namespace TemplateLexer

def marker (name lead tail : List Char) : List Char :=
  '{' :: '{' :: (lead ++ (name ++ (tail ++ ['}', '}'])))

def MarkedBy (name text : List Char) (length : Nat) : Prop :=
  ∃ lead tail rest : List Char, (∀ c ∈ lead, Text.isBlank c = true) ∧
    (∀ c ∈ tail, Text.isBlank c = true) ∧ text = marker name lead tail ++ rest ∧
    length = (marker name lead tail).length

structure MarkerName (name : List Char) : Prop where
  solid : Text.beginsBlank name = false
  nonempty : name ≠ []
  unbraced : '{' ∉ name

theorem markerName_raw : MarkerName ['r', 'a', 'w'] :=
  ⟨by decide, by decide, by decide⟩

theorem markerName_slash_raw : MarkerName ['/', 'r', 'a', 'w'] :=
  ⟨by decide, by decide, by decide⟩

variable {name text : List Char} {length : Nat}

theorem length_marker (name lead tail : List Char) :
    (marker name lead tail).length = lead.length + name.length + tail.length + 4 := by
  simp [marker]
  omega

theorem dropWhile_blanks {lead rest : List Char} (blank : ∀ c ∈ lead, Text.isBlank c = true)
    (solid : Text.beginsBlank rest = false) :
    (lead ++ rest).dropWhile Text.isBlank = rest ∧ (lead ++ rest).takeWhile Text.isBlank = lead := by
  rw [List.dropWhile_append_of_pos blank, List.takeWhile_append_of_pos blank]
  cases rest with
  | nil => simp
  | cons c rest =>
    have first : ¬ Text.isBlank c = true := by simpa [Text.beginsBlank] using solid
    simp [List.dropWhile_cons_of_neg first, List.takeWhile_cons_of_neg first]

theorem markedBy_of_markerLength? (found : markerLength? name text = some length) :
    MarkedBy name text length := by
  unfold markerLength? at found
  split at found
  · next opens =>
    obtain ⟨inside, rfl⟩ := Text.startsWith_iff.mp opens
    dsimp only at found
    split at found
    · next named =>
      obtain ⟨ending, sameName⟩ := Text.startsWith_iff.mp named
      split at found
      · next closes =>
        obtain ⟨rest, sameEnding⟩ := Text.startsWith_iff.mp closes
        simp only [List.cons_append, List.nil_append, List.drop_succ_cons, List.drop_zero]
          at sameName sameEnding found
        rw [sameName, List.drop_left] at sameEnding found
        have whole : inside = inside.takeWhile Text.isBlank ++ (name ++
            (ending.takeWhile Text.isBlank ++ '}' :: '}' :: rest)) := by
          rw [← sameEnding, List.takeWhile_append_dropWhile, ← sameName,
            List.takeWhile_append_dropWhile]
        refine ⟨inside.takeWhile Text.isBlank, ending.takeWhile Text.isBlank, rest,
          fun c member => List.mem_takeWhile_imp member,
          fun c member => List.mem_takeWhile_imp member, ?_, ?_⟩
        · simpa [marker] using whole
        · rw [length_marker]
          have := Option.some.inj found
          omega
      · exact nomatch found
    · exact nomatch found
  · exact nomatch found

-- The name has to begin with a solid character: otherwise the blanks in front of it would take
-- some of it away.
theorem MarkedBy.markerLength? (valid : MarkerName name) (marked : MarkedBy name text length) :
    markerLength? name text = some length := by
  obtain ⟨lead, tail, rest, blankLead, blankTail, rfl, rfl⟩ := marked
  have braces : Text.beginsBlank ('}' :: '}' :: rest) = false := rfl
  have named : Text.beginsBlank (name ++ (tail ++ '}' :: '}' :: rest)) = false := by
    obtain ⟨c, others, rfl⟩ := List.exists_cons_of_ne_nil valid.nonempty
    exact valid.solid
  obtain ⟨dropLead, takeLead⟩ := dropWhile_blanks blankLead named
  obtain ⟨dropTail, takeTail⟩ := dropWhile_blanks blankTail braces
  have spelled : marker name lead tail ++ rest =
      '{' :: '{' :: (lead ++ (name ++ (tail ++ '}' :: '}' :: rest))) := by
    simp [marker]
  have starts (front back : List Char) : Text.startsWith front (front ++ back) = true :=
    Text.startsWith_iff.mpr ⟨back, rfl⟩
  have opens (back : List Char) : Text.startsWith ['{', '{'] ('{' :: '{' :: back) = true :=
    starts ['{', '{'] back
  have closes : Text.startsWith ['}', '}'] ('}' :: '}' :: rest) = true :=
    starts ['}', '}'] rest
  rw [spelled, length_marker]
  simp only [TemplateLexer.markerLength?, opens, if_true, List.drop_succ_cons, List.drop_zero,
    dropLead, takeLead, starts, List.drop_left, dropTail, takeTail, closes, Option.some.injEq]
  omega

theorem markerLength?_eq_some_iff (valid : MarkerName name) :
    markerLength? name text = some length ↔ MarkedBy name text length :=
  ⟨markedBy_of_markerLength?, MarkedBy.markerLength? valid⟩

namespace MarkedBy

theorem length_le (marked : MarkedBy name text length) : length ≤ text.length := by
  obtain ⟨lead, tail, rest, _, _, rfl, rfl⟩ := marked
  simp

theorem four_le (marked : MarkedBy name text length) : 4 ≤ length := by
  obtain ⟨lead, tail, rest, _, _, _, rfl⟩ := marked
  rw [length_marker]
  omega

theorem append (marked : MarkedBy name text length) (more : List Char) :
    MarkedBy name (text ++ more) length := by
  obtain ⟨lead, tail, rest, blankLead, blankTail, rfl, rfl⟩ := marked
  exact ⟨lead, tail, rest ++ more, blankLead, blankTail, List.append_assoc _ _ _, rfl⟩

theorem of_append {more : List Char} (marked : MarkedBy name (text ++ more) length)
    (inside : length ≤ text.length) : MarkedBy name text length := by
  obtain ⟨lead, tail, rest, blankLead, blankTail, whole, rfl⟩ := marked
  have starts : marker name lead tail <+: text :=
    List.prefix_of_prefix_length_le ⟨rest, whole.symm⟩ (List.prefix_append text more) inside
  obtain ⟨others, same⟩ := starts
  exact ⟨lead, tail, others, blankLead, blankTail, same.symm, rfl⟩

theorem getElem?_ne_brace (valid : MarkerName name) (marked : MarkedBy name text length)
    (n : Nat) (later : 2 ≤ n) (inside : n < length) : text[n]? ≠ some '{' := by
  obtain ⟨lead, tail, rest, blankLead, blankTail, rfl, rfl⟩ := marked
  obtain ⟨m, rfl⟩ := Nat.exists_eq_add_of_le' later
  rw [List.getElem?_append_left inside]
  intro brace
  have member : '{' ∈ lead ++ (name ++ (tail ++ ['}', '}'])) := List.mem_of_getElem? brace
  simp only [List.mem_append, List.mem_cons, List.not_mem_nil, or_false] at member
  rcases member with member | member | member | member | member
  · exact absurd (blankLead _ member) (by decide)
  · exact valid.unbraced member
  · exact absurd (blankTail _ member) (by decide)
  · exact absurd member (by decide)
  · exact absurd member (by decide)

-- Braces that open behind a marker's own stand behind the whole marker.
theorem le_of_braces (valid : MarkerName name) {m k : Nat}
    (marked : MarkedBy name (text.drop m) length) (braces : ['{', '{'] <+: text.drop k)
    (later : m < k) : m + length ≤ k := by
  by_contra within
  have long := marked.four_le
  obtain ⟨rest, whole⟩ := braces
  have first : text[k]? = some '{' := by
    rw [← List.head?_drop, ← whole]
    rfl
  have second : text[k + 1]? = some '{' := by
    rw [← List.head?_drop, ← List.drop_drop, ← whole]
    rfl
  -- One of the two braces stands behind the marker's own two.
  by_cases adjacent : k = m + 1
  · refine marked.getElem?_ne_brace valid 2 (Nat.le_refl 2) (by omega) ?_
    rwa [List.getElem?_drop, show m + 2 = k + 1 by omega]
  · refine marked.getElem?_ne_brace valid (k - m) (by omega) (by omega) ?_
    rwa [List.getElem?_drop, show m + (k - m) = k by omega]

end MarkedBy

-- A marker is found at its own braces when none stands in front of it, for none can begin there
-- and run into it.
theorem first?_markerLength?_append (valid : MarkerName name) {front back : List Char}
    (nowhere : Text.first? (markerLength? name) front = none) (marked : MarkedBy name back length) :
    Text.first? (markerLength? name) (front ++ back) = some (front.length, length) := by
  refine Text.first?_eq_some_iff.mpr ⟨by simp, ?_, fun m less => ?_⟩
  · rw [List.drop_left]
    exact marked.markerLength? valid
  · rw [Option.eq_none_iff_forall_ne_some]
    intro other early
    -- An earlier marker would end before the braces at the boundary, and so be found in front.
    have earlier := markedBy_of_markerLength? early
    have braces : ['{', '{'] <+: (front ++ back).drop front.length := by
      obtain ⟨lead, tail, rest, _, _, rfl, _⟩ := marked
      rw [List.drop_left]
      exact ⟨_, rfl⟩
    have short := earlier.le_of_braces valid braces less
    rw [List.drop_append_of_le_length (Nat.le_of_lt less)] at earlier
    have within := earlier.of_append (by rw [List.length_drop]; omega)
    have unmarked := Text.first?_eq_none_iff.mp nowhere m (Nat.le_of_lt less)
    rw [within.markerLength? valid] at unmarked
    exact nomatch unmarked

theorem first?_markerLength?_take (valid : MarkerName name) {place : Nat}
    (found : Text.first? (markerLength? name) text = some (place, length)) :
    Text.first? (markerLength? name) (text.take place) = none := by
  obtain ⟨_, _, before⟩ := Text.first?_eq_some_iff.mp found
  apply Text.first?_eq_none_iff.mpr
  intro m _
  rw [Option.eq_none_iff_forall_ne_some]
  intro other early
  have earlier := markedBy_of_markerLength? early
  have room := earlier.length_le
  have whole := earlier.append (text.drop place)
  have long := earlier.four_le
  rw [List.length_drop, List.length_take] at room
  -- What has been cut off behind a marker does not unmake it.
  rw [← List.drop_append_of_le_length (by rw [List.length_take]; omega),
    List.take_append_drop] at whole
  have unmarked := before m (by omega)
  rw [whole.markerLength? valid] at unmarked
  exact nomatch unmarked

theorem first?_markerLength?_append_right (valid : MarkerName name) {place : Nat}
    (found : Text.first? (markerLength? name) text = some (place, length)) (more : List Char) :
    Text.first? (markerLength? name) (text ++ more) = some (place, length) := by
  obtain ⟨inside, here, _⟩ := Text.first?_eq_some_iff.mp found
  have marked := markedBy_of_markerLength? here
  have split := first?_markerLength?_append valid (first?_markerLength?_take valid found)
    (marked.append more)
  rwa [List.length_take, Nat.min_eq_left inside, ← List.append_assoc, List.take_append_drop]
    at split

theorem first?_markerLength?_take_stop (valid : MarkerName name) {place : Nat}
    (found : Text.first? (markerLength? name) text = some (place, length)) :
    Text.first? (markerLength? name) (text.take (place + length)) = some (place, length) := by
  obtain ⟨inside, here, _⟩ := Text.first?_eq_some_iff.mp found
  have marked := markedBy_of_markerLength? here
  have room := marked.length_le
  rw [← List.take_append_drop length (text.drop place)] at marked
  have alone := marked.of_append (by rw [List.length_take]; omega)
  have split := first?_markerLength?_append valid (first?_markerLength?_take valid found) alone
  rwa [List.length_take, Nat.min_eq_left inside, ← List.take_add] at split

def HoldsMarker (name text : List Char) : Prop :=
  ∃ lead tail : List Char, (∀ c ∈ lead, Text.isBlank c = true) ∧
    (∀ c ∈ tail, Text.isBlank c = true) ∧ marker name lead tail <:+: text

theorem first?_markerLength?_eq_none_iff (valid : MarkerName name) :
    Text.first? (markerLength? name) text = none ↔ ¬ HoldsMarker name text := by
  rw [Text.first?_eq_none_iff]
  constructor
  · rintro nothing ⟨lead, tail, blankLead, blankTail, front, back, rfl⟩
    have marked : MarkedBy name ((front ++ marker name lead tail ++ back).drop front.length)
        (marker name lead tail).length :=
      ⟨lead, tail, back, blankLead, blankTail, by simp [List.append_assoc], rfl⟩
    have unmarked := nothing front.length (by simp [List.append_assoc])
    rw [marked.markerLength? valid] at unmarked
    exact nomatch unmarked
  · intro nowhere m _
    rw [Option.eq_none_iff_forall_ne_some]
    intro length found
    obtain ⟨lead, tail, rest, blankLead, blankTail, whole, _⟩ := markedBy_of_markerLength? found
    have starts : marker name lead tail <+: text.drop m := ⟨rest, whole.symm⟩
    exact nowhere ⟨lead, tail, blankLead, blankTail,
      starts.isInfix.trans (List.drop_suffix m text).isInfix⟩

-- Only blanks and the name can follow the braces of a marker.
theorem MarkedBy.not_hash {text : List Char} {length : Nat}
    (marked : MarkedBy ['r', 'a', 'w'] text length) :
    Text.startsWith ['{', '{', '#'] text = false := by
  obtain ⟨lead, tail, rest, blank, _, rfl, _⟩ := marked
  cases lead with
  | nil => rfl
  | cons c lead =>
    have other : '#' ≠ c := by
      rintro rfl
      exact absurd (blank _ List.mem_cons_self) (by decide)
    simp [marker, Text.startsWith, List.isPrefixOf, other]

namespace RawBlock

theorem openerLength?_eq_some_iff :
    openerLength? text = some length ↔ MarkedBy ['r', 'a', 'w'] text length :=
  markerLength?_eq_some_iff markerName_raw

theorem read_eq_absent_iff : read text = .absent ↔ openerLength? text = none := by
  unfold read
  split
  · next opens => simp [opens]
  · next opens =>
    rw [opens]
    split <;> simp

theorem read_eq_absent_of_hash (hash : Text.startsWith ['{', '{', '#'] text = true) :
    read text = .absent := by
  rw [read_eq_absent_iff, Option.eq_none_iff_forall_ne_some]
  intro length opens
  rw [(openerLength?_eq_some_iff.mp opens).not_hash] at hash
  exact nomatch hash

theorem read_eq_found_iff {block : RawBlock} : read text = .found block ↔
    ∃ opener content closer, openerLength? text = some opener ∧
      Text.first? closerLength? (text.drop opener) = some (content, closer) ∧
      block = ⟨opener, opener + content, opener + content + closer⟩ := by
  unfold read
  split
  · next opens => simp [opens]
  · next opener opens =>
    split
    · next closes => simp [opens, closes]
    · next content closer closes => simp [opens, closes, eq_comm]

theorem read_eq_unclosed_iff : read text = .unclosed ↔
    ∃ opener, openerLength? text = some opener ∧
      Text.first? closerLength? (text.drop opener) = none := by
  unfold read
  split
  · next opens => simp [opens]
  · next opener opens =>
    split
    · next closes => simp [opens, closes]
    · next content closer closes => simp [opens, closes]

theorem read_append {block : RawBlock} (found : read text = .found block) (more : List Char) :
    read (text ++ more) = .found block := by
  obtain ⟨opener, content, closer, opens, closes, same⟩ := read_eq_found_iff.mp found
  have marked := openerLength?_eq_some_iff.mp opens
  refine read_eq_found_iff.mpr ⟨opener, content, closer,
    openerLength?_eq_some_iff.mpr (marked.append more), ?_, same⟩
  rw [List.drop_append_of_le_length marked.length_le]
  exact first?_markerLength?_append_right markerName_slash_raw closes more

theorem read_take {block : RawBlock} (found : read text = .found block) :
    read (text.take block.stop) = .found block := by
  obtain ⟨opener, content, closer, opens, closes, rfl⟩ := read_eq_found_iff.mp found
  have marked := openerLength?_eq_some_iff.mp opens
  have room := marked.length_le
  rw [← List.take_append_drop (opener + content + closer) text] at marked
  have alone := marked.of_append (by rw [List.length_take]; omega)
  refine read_eq_found_iff.mpr ⟨opener, content, closer,
    openerLength?_eq_some_iff.mpr alone, ?_, rfl⟩
  rw [List.drop_take, Nat.add_assoc, Nat.add_sub_cancel_left]
  exact first?_markerLength?_take_stop markerName_slash_raw closes

theorem read_take_of_absent (absent : read text = .absent) (n : Nat) :
    read (text.take n) = .absent := by
  rw [read_eq_absent_iff, Option.eq_none_iff_forall_ne_some] at *
  intro length opens
  have marked := (openerLength?_eq_some_iff.mp opens).append (text.drop n)
  rw [List.take_append_drop] at marked
  exact absent length (openerLength?_eq_some_iff.mpr marked)

theorem first?_content {block : RawBlock} (found : read text = .found block) :
    Text.first? closerLength? (Text.slice text block.contentStart block.contentStop) = none := by
  obtain ⟨opener, content, closer, _, closes, rfl⟩ := read_eq_found_iff.mp found
  rw [Text.slice, Nat.add_sub_cancel_left]
  exact first?_markerLength?_take markerName_slash_raw closes

theorem bounds_of_read {block : RawBlock} (found : read text = .found block) :
    block.contentStart ≤ block.contentStop ∧ block.contentStop ≤ block.stop ∧
      block.stop ≤ text.length := by
  obtain ⟨opener, content, closer, opens, closes, rfl⟩ := read_eq_found_iff.mp found
  obtain ⟨inside, here, _⟩ := Text.first?_eq_some_iff.mp closes
  have first := (openerLength?_eq_some_iff.mp opens).length_le
  have last := (markedBy_of_markerLength? here).length_le
  rw [List.length_drop, List.length_drop] at last
  rw [List.length_drop] at inside
  refine ⟨Nat.le_add_right _ _, Nat.le_add_right _ _, ?_⟩
  dsimp only
  omega

end RawBlock

end TemplateLexer
