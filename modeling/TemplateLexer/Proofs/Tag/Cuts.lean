import TemplateLexer.Proofs.Tag.Crossing
import TemplateLexer.Proofs.Text.Occurrence

/-! The cuts of a tag that ends: they lie within the tag and in order, nothing after the tag
has a part in them, and they part it into stretches without pipes. -/

set_option autoImplicit false

namespace TemplateLexer.Tag

namespace Scan

variable {scan : Scan} {text : List Char} {cuts : List Nat}

-- The brace that ends a tag is read without regard to what follows it.
theorem finish?_append_right (ended : scan.finish? text = some cuts) (more : List Char) :
    scan.finish? (text ++ more) = some cuts := by
  induction text generalizing scan with
  | nil => cases ended
  | cons c rest ih =>
    unfold finish? at ended
    rw [List.cons_append, finish?]
    split at ended
    · next last => rwa [if_pos last]
    · next goes =>
      rw [if_neg goes]
      -- A tag that goes on has a character behind this one, so that nothing else is read ahead.
      cases rest with
      | nil => cases ended
      | cons d rest => exact ih ended

theorem offset_lt_of_finish? (ended : scan.finish? text = some cuts) :
    scan.offset < cuts.getLastD 0 := by
  induction text generalizing scan with
  | nil => exact nomatch ended
  | cons c rest ih =>
    unfold finish? at ended
    split at ended
    · cases ended
      simp
    · exact Nat.lt_of_succ_lt (ih ended)

theorem finish?_take (ended : scan.finish? text = some cuts) {n : Nat}
    (within : cuts.getLastD 0 ≤ scan.offset + n) : scan.finish? (text.take n) = some cuts := by
  induction text generalizing scan n with
  | nil => exact nomatch ended
  | cons c rest ih =>
    have inside := offset_lt_of_finish? ended
    obtain ⟨m, rfl⟩ : ∃ m, n = m + 1 := Nat.exists_eq_succ_of_ne_zero (by omega)
    unfold finish? at ended
    rw [List.take_succ_cons, finish?]
    split at ended
    · next last => rwa [if_pos last]
    · next goes =>
      have onward := offset_lt_of_finish? ended
      simp only [read] at onward
      -- The tag does not end with this character, so that the one read ahead is left.
      have next : (rest.take m).head? = rest.head? := by
        rw [List.head?_take, if_neg (by omega)]
      rw [if_neg goes, next]
      refine ih ended ?_
      simp only [read]
      omega

theorem exists_of_finish? (ended : scan.finish? text = some cuts) :
    ∃ cut later, cuts = scan.cuts.reverse ++ cut :: later := by
  induction text generalizing scan with
  | nil => exact nomatch ended
  | cons c rest ih =>
    unfold finish? at ended
    split at ended
    · cases ended
      exact ⟨scan.offset + 1, [], by simp⟩
    · obtain ⟨cut, later, same⟩ := ih ended
      simp only [read] at same
      split at same
      · exact ⟨scan.offset + 2, cut :: later, by simpa using same⟩
      · exact ⟨cut, later, same⟩

-- A pipe is cut one character ahead of what has been read.
theorem bounds_of_finish? (ended : scan.finish? text = some cuts)
    (behind : ∀ cut ∈ scan.cuts, cut ≤ scan.offset + 1) :
    cuts.getLastD 0 ≤ scan.offset + text.length ∧ ∀ cut ∈ cuts, cut ≤ cuts.getLastD 0 := by
  induction text generalizing scan with
  | nil => exact nomatch ended
  | cons c rest ih =>
    unfold finish? at ended
    split at ended
    · cases ended
      have last : (((scan.offset + 1) :: scan.cuts).reverse).getLastD 0 = scan.offset + 1 := by
        simp
      rw [last]
      refine ⟨by simp, fun cut member => ?_⟩
      rcases List.mem_cons.mp (List.mem_reverse.mp member) with rfl | member
      · exact Nat.le_refl _
      · exact behind cut member
    · have later : ∀ cut ∈ (scan.read c rest.head?).cuts,
          cut ≤ (scan.read c rest.head?).offset + 1 := by
        intro cut member
        simp only [read] at member ⊢
        split at member
        · rcases List.mem_cons.mp member with rfl | member
          · exact Nat.le_refl _
          · exact Nat.le_succ_of_le (behind cut member)
        · exact Nat.le_succ_of_le (behind cut member)
      obtain ⟨inside, ordered⟩ := ih ended later
      refine ⟨?_, ordered⟩
      simp only [read, List.length_cons] at inside ⊢
      omega

-- A cut lies behind what has been read only while the second character of its pipe is still to be
-- read; that character neither begins a pipe nor ends the tag.
theorem ascending_of_finish? (ended : scan.finish? text = some cuts)
    (descending : scan.cuts.Pairwise (· > ·))
    (behind : ∀ cut ∈ scan.cuts, cut ≤ scan.offset + 1 ∧
      (text.head? ≠ some '>' → cut ≤ scan.offset)) : cuts.Pairwise (· < ·) := by
  induction text generalizing scan with
  | nil => exact nomatch ended
  | cons c rest ih =>
    unfold finish? at ended
    split at ended
    · next last =>
      cases ended
      simp only [Contexts.isEnd, Bool.and_eq_true, decide_eq_true_eq] at last
      obtain ⟨rfl, _⟩ := last
      rw [List.pairwise_reverse, List.pairwise_cons]
      exact ⟨fun cut member => Nat.lt_succ_of_le ((behind cut member).2 (by simp)), descending⟩
    · by_cases pipe : scan.contexts.isPipe c rest.head?
      · have cuts : (scan.read c rest.head?).cuts = (scan.offset + 2) :: scan.cuts := if_pos pipe
        simp only [Contexts.isPipe, Bool.and_eq_true, decide_eq_true_eq] at pipe
        obtain ⟨⟨rfl, arrow⟩, _⟩ := pipe
        have earlier : ∀ cut ∈ scan.cuts, cut ≤ scan.offset :=
          fun cut member => (behind cut member).2 (by simp)
        refine ih ended ?_ ?_
        · rw [cuts, List.pairwise_cons]
          exact ⟨fun cut member => Nat.lt_add_right 1 (Nat.lt_succ_of_le (earlier cut member)),
            descending⟩
        · rw [cuts]
          intro cut member
          refine ⟨?_, fun other => absurd arrow other⟩
          rcases List.mem_cons.mp member with rfl | member
          · exact Nat.le_refl _
          · exact Nat.le_trans (earlier cut member) (Nat.le_add_right _ 2)
      · have cuts : (scan.read c rest.head?).cuts = scan.cuts := if_neg pipe
        refine ih ended ?_ ?_
        · rwa [cuts]
        · rw [cuts]
          exact fun cut member => ⟨Nat.le_succ_of_le (behind cut member).1,
            fun _ => (behind cut member).1⟩

theorem read_onward {whole : List Char} {c : Char} {rest : List Char} {next : Option Char}
    (read : whole.drop scan.offset = c :: rest) : whole.drop (scan.read c next).offset = rest := by
  have step : (scan.read c next).offset = scan.offset + 1 := rfl
  rw [step, ← List.drop_drop, read]
  rfl

theorem brace_of_finish? {whole : List Char} (ended : scan.finish? text = some cuts)
    (read : whole.drop scan.offset = text) :
    ∃ n, cuts.getLastD 0 = n + 1 ∧ ['}'] <+: whole.drop n := by
  induction text generalizing scan with
  | nil => exact nomatch ended
  | cons c rest ih =>
    unfold finish? at ended
    split at ended
    · next last =>
      cases ended
      simp only [Contexts.isEnd, Bool.and_eq_true, decide_eq_true_eq] at last
      obtain ⟨rfl, _⟩ := last
      exact ⟨scan.offset, by simp, rest, read.symm⟩
    · exact ih ended (read_onward read)

/-- A cut that is not the last one stands straight behind the pipe it was made for. -/
theorem pipe_of_mem_dropLast {whole : List Char} (ended : scan.finish? text = some cuts)
    (read : whole.drop scan.offset = text) {cut : Nat} (member : cut ∈ cuts.dropLast) :
    cut ∈ scan.cuts ∨ ∃ n, cut = n + 2 ∧ ['|', '>'] <+: whole.drop n := by
  induction text generalizing scan with
  | nil => exact nomatch ended
  | cons c rest ih =>
    unfold finish? at ended
    split at ended
    · cases ended
      rw [List.reverse_cons, List.dropLast_concat, List.mem_reverse] at member
      exact .inl member
    · rcases ih ended (read_onward read) with earlier | found
      · simp only [Scan.read] at earlier
        split at earlier
        · next pipe =>
          rcases List.mem_cons.mp earlier with rfl | earlier
          · simp only [Contexts.isPipe, Bool.and_eq_true, decide_eq_true_eq] at pipe
            obtain ⟨⟨rfl, arrow⟩, _⟩ := pipe
            obtain ⟨later, rfl⟩ := List.head?_eq_some_iff.mp arrow
            exact .inr ⟨scan.offset, rfl, later, read.symm⟩
          · exact .inl earlier
        · exact .inl earlier
      · exact .inr found

end Scan

theorem cuts?_append_right {text : List Char} {cuts : List Nat} (closed : cuts? text = some cuts)
    (more : List Char) : cuts? (text ++ more) = some cuts :=
  Scan.finish?_append_right closed more

theorem cuts?_take {text : List Char} {cuts : List Nat} (closed : cuts? text = some cuts) :
    cuts? (text.take (cuts.getLastD 0)) = some cuts :=
  Scan.finish?_take closed (Nat.le_add_left _ _)

theorem readAt_eq_unclosed_iff {source : List Char} {offset : Nat} :
    readAt source offset = .unclosed ↔ cuts? (source.drop offset) = none := by
  have front : Text.readingFrom? source offset = some (source.drop offset) :=
    if_pos (Int.natCast_nonneg offset)
  cases closed : cuts? (source.drop offset) with
  | none => simp only [readAt, front, closed]
  | some cuts => simp [readAt, front, closed]

theorem bounds_of_cuts? {inside : List Char} {cuts : List Nat}
    (closed : cuts? ('{' :: '{' :: inside) = some cuts) :
    cuts.getLastD 0 ≤ inside.length + 2 ∧ ∀ cut ∈ cuts, cut ≤ cuts.getLastD 0 := by
  rw [cuts?, Scan.finish?_start] at closed
  obtain ⟨within, ordered⟩ := Scan.bounds_of_finish? closed (by simp [Scan.opened])
  refine ⟨?_, ordered⟩
  simp only [Scan.opened] at within
  omega

theorem ascending_of_cuts? {inside : List Char} {cuts : List Nat}
    (closed : cuts? ('{' :: '{' :: inside) = some cuts) : cuts.Pairwise (· < ·) := by
  rw [cuts?, Scan.finish?_start] at closed
  exact Scan.ascending_of_finish? closed (by simp [Scan.opened]) (by simp [Scan.opened])

theorem map_start_segments (text : List Char) (cuts : List Nat) :
    (segments text cuts).map Segment.start = cuts.dropLast := by
  fun_induction segments text cuts with
  | case1 start cut cuts ih => rw [List.map_cons, ih, List.dropLast_cons_cons]
  | case2 cuts short =>
    match cuts with
    | [] => rfl
    | [_] => rfl
    | start :: cut :: later => exact absurd rfl (short start cut later)

theorem start_lt_of_mem_segments {inside text : List Char} {cuts : List Nat} {segment : Segment}
    (closed : cuts? ('{' :: '{' :: inside) = some cuts) (member : segment ∈ segments text cuts) :
    segment.start < cuts.getLastD 0 := by
  have start : segment.start ∈ cuts.dropLast := by
    rw [← map_start_segments text]
    exact List.mem_map_of_mem member
  have ascending := ascending_of_cuts? closed
  obtain ⟨front, last, rfl⟩ : ∃ front last, cuts = front ++ [last] :=
    ⟨_, _, (List.dropLast_concat_getLast (List.ne_nil_of_mem (List.dropLast_subset cuts start))).symm⟩
  rw [List.dropLast_concat] at start
  rw [List.getLastD_concat]
  exact (List.pairwise_append.mp ascending).2.2 segment.start start last (List.mem_singleton_self _)

theorem mem_segments {text : List Char} {cuts : List Nat} {segment : Segment}
    (member : segment ∈ segments text cuts) :
    segment.start ∈ cuts ∧ ∃ cut ∈ cuts, segment.stop = cut - 2 := by
  fun_induction segments text cuts with
  | case1 start cut cuts ih =>
    rcases List.mem_cons.mp member with rfl | member
    · exact ⟨by simp, cut, by simp, rfl⟩
    · obtain ⟨first, last, among, stop⟩ := ih member
      exact ⟨List.mem_cons_of_mem start first, last, List.mem_cons_of_mem start among, stop⟩
  | case2 => exact nomatch member

theorem segments_take {text : List Char} {cuts : List Nat} {n : Nat}
    (within : ∀ cut ∈ cuts, cut ≤ n) : segments (text.take n) cuts = segments text cuts := by
  induction cuts with
  | nil => rfl
  | cons start cuts ih =>
    cases cuts with
    | nil => rfl
    | cons stop cuts =>
      have inside : stop - 2 ≤ n := Nat.le_trans (Nat.sub_le _ _) (within stop (by simp))
      rw [segments, segments, Text.slice_take inside,
        ih fun cut member => within cut (List.mem_cons_of_mem start member)]

theorem segments_ne_nil {text : List Char} {cuts : List Nat} (closed : cuts? text = some cuts) :
    segments text cuts ≠ [] := by
  obtain ⟨cut, later, rfl⟩ := Scan.exists_of_finish? closed
  exact List.cons_ne_nil _ _

theorem getLast?_segments (text : List Char) (start cut : Nat) (cuts : List Nat) :
    ∃ segment ∈ (segments text (start :: cut :: cuts)).getLast?,
      segment.stop = (cut :: cuts).getLastD 0 - 2 := by
  induction cuts generalizing start cut with
  | nil => exact ⟨_, rfl, rfl⟩
  | cons next cuts ih =>
    obtain ⟨segment, last, stop⟩ := ih cut next
    refine ⟨segment, ?_, stop⟩
    rw [segments, segments, List.getLast?_cons_cons, ← segments]
    exact last

theorem exists_last_segment {text : List Char} {cuts : List Nat} (closed : cuts? text = some cuts) :
    ∃ segment ∈ (segments text cuts).getLast?, segment.stop = cuts.getLastD 0 - 2 := by
  obtain ⟨cut, later, rfl⟩ := Scan.exists_of_finish? closed
  exact getLast?_segments text 2 cut later

theorem cuts?_plain {inside : List Char} (plain : ∀ c ∈ inside, isPlain c = true)
    (back : List Char) :
    cuts? ('{' :: '{' :: (inside ++ '}' :: '}' :: back)) = some [2, inside.length + 4] := by
  have leads : Scan.opened.Leads (some '}') inside [.bracket, .bracket] [] :=
    Scan.Leads.of_inert fun c member => inert_of_isPlain _ (plain c member)
  have last : 2 + inside.length + 2 = inside.length + 4 := by omega
  rw [cuts?, Scan.finish?_start, leads.finish?, Scan.finish?_close rfl]
  simp [Scan.past, Scan.opened, last]

end TemplateLexer.Tag
