import TemplateLexer.Proofs.Marker

/-! Raw blocks by their markers: a block reaches from its opener to the first closer behind it. -/

set_option autoImplicit false

namespace TemplateLexer

def MarkerAt (name source : List Char) (start stop : Nat) : Prop :=
  ∃ length, stop = start + length ∧ MarkedBy name (source.drop start) length

section MarkerAt

variable {name source : List Char} {start stop : Nat}

theorem MarkerAt.bounds (stands : MarkerAt name source start stop) :
    start + name.length + 4 ≤ stop ∧ stop ≤ source.length := by
  obtain ⟨length, rfl, marked⟩ := stands
  have room := marked.length_le
  have long := marked.four_le
  obtain ⟨lead, tail, rest, _, _, _, same⟩ := marked
  rw [length_marker] at same
  rw [List.length_drop] at room
  omega

theorem markerAt_iff (valid : MarkerName name) {length : Nat} :
    MarkerAt name source start (start + length) ↔
      markerLength? name (source.drop start) = some length := by
  rw [markerLength?_eq_some_iff valid]
  constructor
  · rintro ⟨other, same, marked⟩
    obtain rfl := Nat.add_left_cancel same
    exact marked
  · exact fun marked => ⟨length, rfl, marked⟩

theorem not_markerAt_iff (valid : MarkerName name) :
    (¬ ∃ stop, MarkerAt name source start stop) ↔
      markerLength? name (source.drop start) = none := by
  rw [Option.eq_none_iff_forall_ne_some]
  constructor
  · intro nowhere length found
    exact nowhere ⟨_, (markerAt_iff valid).mpr found⟩
  · rintro nothing ⟨_, length, rfl, marked⟩
    exact nothing length (marked.markerLength? valid)

theorem first?_drop_eq_none_iff (valid : MarkerName name) :
    Text.first? (markerLength? name) (source.drop start) = none ↔
      ∀ i, start ≤ i → ¬ ∃ stop, MarkerAt name source i stop := by
  rw [Text.first?_eq_none_iff]
  constructor
  · rintro nothing i behind ⟨stop, stands⟩
    obtain ⟨m, rfl⟩ := Nat.exists_eq_add_of_le behind
    have bounds := stands.bounds
    have inside : m ≤ (source.drop start).length := by
      rw [List.length_drop]
      omega
    have unmarked := nothing m inside
    rw [List.drop_drop, ← not_markerAt_iff valid] at unmarked
    exact unmarked ⟨stop, stands⟩
  · intro nowhere m _
    rw [List.drop_drop, ← not_markerAt_iff valid]
    exact nowhere (start + m) (Nat.le_add_right start m)

theorem first?_drop_eq_some_iff (valid : MarkerName name) {m length : Nat} :
    Text.first? (markerLength? name) (source.drop start) = some (m, length) ↔
      MarkerAt name source (start + m) (start + m + length) ∧
        ∀ i, start ≤ i → i < start + m → ¬ ∃ stop, MarkerAt name source i stop := by
  rw [Text.first?_eq_some_iff, List.drop_drop, ← markerAt_iff valid]
  constructor
  · rintro ⟨_, stands, before⟩
    refine ⟨stands, fun i behind less => ?_⟩
    obtain ⟨k, rfl⟩ := Nat.exists_eq_add_of_le behind
    rw [not_markerAt_iff valid, ← List.drop_drop]
    exact before k (by omega)
  · rintro ⟨stands, before⟩
    have bounds := stands.bounds
    refine ⟨?_, stands, fun k less => ?_⟩
    · rw [List.length_drop]
      omega
    · rw [List.drop_drop, ← not_markerAt_iff valid]
      exact before (start + k) (Nat.le_add_right start k) (by omega)

end MarkerAt

namespace RawBlock

variable {source : List Char} {start : Nat}

theorem read_drop_eq_absent_iff : read (source.drop start) = .absent ↔
    ¬ ∃ stop, MarkerAt ['r', 'a', 'w'] source start stop := by
  rw [read_eq_absent_iff, openerLength?, not_markerAt_iff markerName_raw]

theorem read_drop_eq_unclosed_iff : read (source.drop start) = .unclosed ↔
    ∃ stop, MarkerAt ['r', 'a', 'w'] source start stop ∧
      ∀ i, stop ≤ i → ¬ ∃ j, MarkerAt ['/', 'r', 'a', 'w'] source i j := by
  rw [read_eq_unclosed_iff]
  constructor
  · rintro ⟨opener, opens, unclosed⟩
    rw [List.drop_drop] at unclosed
    exact ⟨start + opener, (markerAt_iff markerName_raw).mpr opens,
      (first?_drop_eq_none_iff markerName_slash_raw).mp unclosed⟩
  · rintro ⟨_, ⟨opener, rfl, marked⟩, unclosed⟩
    refine ⟨opener, openerLength?_eq_some_iff.mpr marked, ?_⟩
    rw [List.drop_drop]
    exact (first?_drop_eq_none_iff markerName_slash_raw).mpr unclosed

theorem read_drop_eq_found_iff {block : RawBlock} :
    (∃ inner, read (source.drop start) = .found inner ∧ inner.shift start = block) ↔
      MarkerAt ['r', 'a', 'w'] source start block.contentStart ∧
      block.contentStart ≤ block.contentStop ∧
      MarkerAt ['/', 'r', 'a', 'w'] source block.contentStop block.stop ∧
      ∀ i, block.contentStart ≤ i → i < block.contentStop →
        ¬ ∃ j, MarkerAt ['/', 'r', 'a', 'w'] source i j := by
  constructor
  · rintro ⟨inner, found, rfl⟩
    obtain ⟨opener, content, closer, opens, closes, rfl⟩ := read_eq_found_iff.mp found
    rw [List.drop_drop] at closes
    obtain ⟨closing, before⟩ := (first?_drop_eq_some_iff markerName_slash_raw).mp closes
    simp only [shift, ← Nat.add_assoc]
    exact ⟨(markerAt_iff markerName_raw).mpr opens, Nat.le_add_right _ _, closing, before⟩
  · obtain ⟨contentStart, contentStop, stop⟩ := block
    dsimp only
    rintro ⟨⟨opener, rfl, marked⟩, ordered, ⟨closer, rfl, closing⟩, before⟩
    obtain ⟨content, rfl⟩ := Nat.exists_eq_add_of_le ordered
    refine ⟨⟨opener, opener + content, opener + content + closer⟩, read_eq_found_iff.mpr
      ⟨opener, content, closer, openerLength?_eq_some_iff.mpr marked, ?_, rfl⟩, ?_⟩
    · rw [List.drop_drop]
      exact (first?_drop_eq_some_iff markerName_slash_raw).mpr ⟨⟨closer, rfl, closing⟩, before⟩
    · simp only [shift, Nat.add_assoc]

theorem matchAt_eq (source : List Char) (start : Nat) : matchAt source start =
    match read (source.drop start) with
    | .absent => .ok none
    | .unclosed => .error (Fault.unclosedRawBlock.report source start)
    | .found block => .ok (some (block.shift start)) := by
  rw [matchAt, readAt, Int.toNat_natCast]
  cases read (source.drop start) <;> rfl

theorem matchAt_eq_some_iff {block : RawBlock} : matchAt source start = .ok (some block) ↔
    ∃ inner, read (source.drop start) = .found inner ∧ inner.shift start = block := by
  rw [matchAt_eq]
  cases read (source.drop start) <;> simp

/-- A block is matched if an opener stands at `start`, and then it reaches to the first closer behind
the opener. Without a closer it is reported at `start`. -/
theorem matchAt_iff_markers (source : List Char) (start : Nat) :
    (matchAt source start = .ok none ↔ ¬ ∃ stop, MarkerAt ['r', 'a', 'w'] source start stop) ∧
    (∀ report, matchAt source start = .error report ↔
      report = ⟨"unclosed raw block".toList, (LineIndex.ofText source).position start, source⟩ ∧
      ∃ stop, MarkerAt ['r', 'a', 'w'] source start stop ∧
        ∀ i, stop ≤ i → ¬ ∃ j, MarkerAt ['/', 'r', 'a', 'w'] source i j) ∧
    (∀ block, matchAt source start = .ok (some block) ↔
      MarkerAt ['r', 'a', 'w'] source start block.contentStart ∧
      block.contentStart ≤ block.contentStop ∧
      MarkerAt ['/', 'r', 'a', 'w'] source block.contentStop block.stop ∧
      ∀ i, block.contentStart ≤ i → i < block.contentStop →
        ¬ ∃ j, MarkerAt ['/', 'r', 'a', 'w'] source i j) ∧
    (∀ block, matchAt source start = .ok (some block) →
      start + 7 ≤ block.contentStart ∧ block.contentStart ≤ block.contentStop ∧
      block.contentStop + 8 ≤ block.stop ∧ block.stop ≤ source.length) := by
  refine ⟨?_, fun report => ?_, fun block => ?_, fun block matched => ?_⟩
  · rw [← read_drop_eq_absent_iff, matchAt_eq]
    cases read (source.drop start) <;> simp
  · rw [← read_drop_eq_unclosed_iff, matchAt_eq]
    have positioned : (⟨"unclosed raw block".toList, (LineIndex.ofText source).position start, source⟩ :
        Report) = Fault.unclosedRawBlock.report source start :=
      rfl
    rw [positioned]
    cases read (source.drop start) with
    | absent => simp
    | unclosed => simpa using eq_comm
    | found block => simp
  · rw [matchAt_eq_some_iff, read_drop_eq_found_iff]
  · obtain ⟨opens, ordered, closes, _⟩ :=
      read_drop_eq_found_iff.mp (matchAt_eq_some_iff.mp matched)
    have first := opens.bounds
    have last := closes.bounds
    simp only [List.length_cons, List.length_nil] at first last
    omega

/-- The first of three braces belongs to the content, since a closer begins at the second. -/
theorem matchAt_iff_markers_threeBraces :
    let source := "\x7b\x7b raw \x7d\x7d\x7b\x7b\x7b/raw\x7d\x7d".toList
    matchAt source 0 = .ok (some ⟨9, 10, 18⟩) ∧
      MarkerAt ['r', 'a', 'w'] source 0 9 ∧ MarkerAt ['/', 'r', 'a', 'w'] source 10 18 ∧
      (∀ i, 9 ≤ i → i < 10 → ¬ ∃ j, MarkerAt ['/', 'r', 'a', 'w'] source i j) ∧
      0 + 7 ≤ 9 ∧ 9 ≤ 10 ∧ 10 + 8 ≤ 18 ∧ 18 ≤ source.length := by
  have matched : matchAt "\x7b\x7b raw \x7d\x7d\x7b\x7b\x7b/raw\x7d\x7d".toList (0 : Nat) =
      .ok (some ⟨9, 10, 18⟩) := by
    decide +kernel
  obtain ⟨_, _, found, bounds⟩ :=
    matchAt_iff_markers "\x7b\x7b raw \x7d\x7d\x7b\x7b\x7b/raw\x7d\x7d".toList 0
  obtain ⟨opens, _, closes, before⟩ := (found _).mp matched
  exact ⟨matched, opens, closes, before, bounds _ matched⟩

end RawBlock

end TemplateLexer
