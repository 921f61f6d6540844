import TemplateLexer.Proofs.Tag.Cuts
import TemplateLexer.Proofs.Text.Folding

/-! Tags in text whose line endings are folded. Line endings mean nothing inside a tag, so it is
cut at the same characters; each cut but the last stands straight behind a marker, so that no line
ending is split there. -/

set_option autoImplicit false

namespace TemplateLexer.Tag

open Text (foldLineEndings foldReturn foldedOffset Uncut)

variable {contexts : Contexts} {c : Char}

-- Of the neighbours only a dollar sign and a star mean something.
theorem Contexts.read_foldReturn (before next : Option Char) :
    contexts.read (before.map foldReturn) c (next.map foldReturn) = contexts.read before c next := by
  have dollar : before.map foldReturn = some '$' ↔ before = some '$' :=
    Text.map_foldReturn_eq_iff (by decide) (by decide)
  have star {o : Option Char} : o.map foldReturn = some '*' ↔ o = some '*' :=
    Text.map_foldReturn_eq_iff (by decide) (by decide)
  unfold read openBrace slash
  simp only [dollar, star]

theorem Contexts.isPipe_foldReturn (next : Option Char) :
    contexts.isPipe c (next.map foldReturn) = contexts.isPipe c next := by
  have arrow : next.map foldReturn = some '>' ↔ next = some '>' :=
    Text.map_foldReturn_eq_iff (by decide) (by decide)
  simp only [isPipe, arrow]

/-- What stands at an offset, when no line ending is split there. -/
structure Reached (whole : List Char) (offset : Nat) (text : List Char) : Prop where
  drop : whole.drop offset = text
  uncut : Uncut (whole.take offset) text

namespace Reached

variable {whole text front rest : List Char} {offset : Nat}

theorem start (text : List Char) : Reached text 0 text :=
  ⟨rfl, Text.uncut_nil text⟩

theorem advance (reached : Reached whole offset text) (front : List Char)
    (split : text = front ++ rest) (nonempty : front ≠ []) (uncut : Uncut front rest) :
    Reached whole (offset + front.length) rest := by
  subst split
  have read : whole.take (offset + front.length) = whole.take offset ++ front := by
    rw [List.take_add, reached.drop, List.take_left]
  refine ⟨?_, ?_⟩
  · rw [← List.drop_drop, reached.drop, List.drop_left]
  · rw [read, Uncut, List.getLast?_append_of_ne_nil _ nonempty]
    exact uncut

theorem foldedOffset_add (reached : Reached whole offset text) (n : Nat) :
    foldedOffset whole (offset + n) = foldedOffset whole offset + foldedOffset text n := by
  obtain ⟨rfl, uncut⟩ := reached
  exact Text.foldedOffset_add uncut n

end Reached

namespace Scan

variable {scan : Scan} {whole text rest : List Char} {cuts : List Nat}

def folded (whole : List Char) (scan : Scan) : Scan where
  contexts := scan.contexts
  before := scan.before.map foldReturn
  offset := foldedOffset whole scan.offset
  cuts := scan.cuts.map (foldedOffset whole)

theorem finish?_plain (plain : isPlain c = true) :
    scan.finish? (c :: rest) =
      finish? ⟨scan.contexts, some c, scan.offset + 1, scan.cuts⟩ rest := by
  have inert := inert_of_isPlain scan.contexts plain
  rw [finish?, read, inert.isEnd, inert.isPipe, inert.read]
  rfl

theorem read_folded (reached : Reached whole scan.offset (c :: rest)) (other : c ≠ '\r') :
    (scan.folded whole).read c (foldLineEndings rest).head? =
      (scan.read c rest.head?).folded whole := by
  have next : foldedOffset whole (scan.offset + 1) = foldedOffset whole scan.offset + 1 := by
    rw [reached.foldedOffset_add, Text.foldedOffset_cons other, Text.foldedOffset_zero]
  simp only [read, folded, Text.head?_foldLineEndings, Contexts.read_foldReturn,
    Contexts.isPipe_foldReturn, next, Option.map_some, foldReturn, if_neg other, Scan.mk.injEq,
    true_and]
  by_cases pipe : scan.contexts.isPipe c rest.head? = true
  · have arrow := pipe
    simp only [Contexts.isPipe, Bool.and_eq_true, decide_eq_true_eq] at arrow
    obtain ⟨later, rfl⟩ := List.head?_eq_some_iff.mp arrow.1.2
    rw [if_pos pipe, if_pos pipe, List.map_cons, reached.foldedOffset_add,
      Text.foldedOffset_cons other, Text.foldedOffset_cons (by decide), Text.foldedOffset_zero]
  · rw [if_neg pipe, if_neg pipe]

/-- A tag is scanned alike in the text and in the folded text. -/
theorem finish?_foldLineEndings (reached : Reached whole scan.offset text) :
    (scan.folded whole).finish? (foldLineEndings text) =
      (scan.finish? text).map (List.map (foldedOffset whole)) := by
  -- The text is split as it is folded, and a line ending is plain on either side.
  fun_induction foldLineEndings text generalizing scan with
  | case1 => rfl
  | case2 rest ih =>
    have onward : Reached whole (scan.offset + 2) rest :=
      reached.advance ['\r', '\n'] rfl (by decide) (Text.uncut_of_last (by decide))
    rw [finish?_plain (by decide), finish?_plain (by decide), finish?_plain (by decide), ← ih onward]
    have next : foldedOffset whole (scan.offset + 2) = foldedOffset whole scan.offset + 1 :=
      reached.foldedOffset_add 2
    simp only [folded, next]
    rfl
  | case3 rest alone ih =>
    have onward : Reached whole (scan.offset + 1) rest :=
      reached.advance ['\r'] rfl (by decide) fun _ => Text.head?_ne_of_alone alone
    rw [finish?_plain (by decide), finish?_plain (by decide), ← ih onward]
    have next : foldedOffset whole (scan.offset + 1) = foldedOffset whole scan.offset + 1 :=
      reached.foldedOffset_add 1
    simp only [folded, next]
    rfl
  | case4 c rest _ other ih =>
    have other : c ≠ '\r' := other
    rw [finish?, finish?]
    by_cases last : scan.contexts.isEnd c = true
    · have next : foldedOffset whole (scan.offset + 1) = foldedOffset whole scan.offset + 1 := by
        rw [reached.foldedOffset_add, Text.foldedOffset_cons other, Text.foldedOffset_zero]
      have same : (scan.folded whole).contexts.isEnd c = true := last
      rw [if_pos last, if_pos same]
      simp [folded, next]
    · have same : ¬ (scan.folded whole).contexts.isEnd c = true := last
      rw [if_neg last, if_neg same, read_folded reached other]
      exact ih (reached.advance [c] rfl (by simp) (Text.uncut_of_last (by simpa using other)))

end Scan

theorem cuts?_foldLineEndings {text : List Char} (braces : ['{', '{'] <+: text) :
    cuts? (foldLineEndings text) = (cuts? text).map (List.map (foldedOffset text)) := by
  have start : Scan.start.folded text = Scan.start := by
    obtain ⟨inside, rfl⟩ := braces
    rfl
  have reached : Reached text Scan.start.offset text := .start text
  have folded := Scan.finish?_foldLineEndings reached
  rwa [start] at folded

/-- No line ending has a part in the two characters straight in front of a cut. -/
def Firm (text : List Char) (cut : Nat) : Prop :=
  ∃ n c d, cut = n + [c, d].length ∧ Text.Level [c, d] ∧ [c, d] <+: text.drop n

namespace Firm

variable {text : List Char} {cut : Nat}

theorem uncut (firm : Firm text cut) : Uncut (text.take cut) (text.drop cut) := by
  obtain ⟨n, c, d, rfl, level, marker⟩ := firm
  exact level.uncut_behind (List.cons_ne_nil c [d]) marker

theorem uncut_before (firm : Firm text cut) : Uncut (text.take (cut - 2)) (text.drop (cut - 2)) := by
  obtain ⟨n, c, d, rfl, level, marker⟩ := firm
  exact level.uncut_at (List.cons_ne_nil c [d]) marker

theorem foldedOffset_sub (firm : Firm text cut) :
    foldedOffset text (cut - 2) = foldedOffset text cut - 2 := by
  obtain ⟨n, c, d, rfl, level, marker⟩ := firm
  rw [level.foldedOffset_behind marker]
  rfl

end Firm

/-- In a tag that is closed by adjacent braces, every cut stands behind a marker. -/
theorem firm_of_cuts? {text : List Char} {cuts : List Nat} (braces : ['{', '{'] <+: text)
    (ended : cuts? text = some cuts) (closed : ['}', '}'] <:+ text.take (cuts.getLastD 0)) :
    ∀ cut ∈ cuts, Firm text cut := by
  intro cut member
  obtain ⟨earlier, last, rfl⟩ : ∃ earlier last, cuts = earlier ++ [last] :=
    ⟨_, _, (List.dropLast_concat_getLast (List.ne_nil_of_mem member)).symm⟩
  rcases List.mem_append.mp member with among | among
  · have inner : cut ∈ (earlier ++ [last]).dropLast := by rwa [List.dropLast_concat]
    rcases Scan.pipe_of_mem_dropLast ended rfl inner with first | ⟨n, rfl, pipe⟩
    · obtain rfl : cut = 2 := List.mem_singleton.mp first
      exact ⟨0, '{', '{', rfl, by decide, braces⟩
    · exact ⟨n, '|', '>', rfl, by decide, pipe⟩
  · obtain rfl := List.mem_singleton.mp among
    rw [List.getLastD_concat] at closed
    have within : cut ≤ text.length := by
      obtain ⟨inside, rfl⟩ := braces
      simpa using (bounds_of_cuts? ended).1
    obtain ⟨front, whole⟩ := closed
    have length := congrArg List.length whole
    rw [List.length_take, Nat.min_eq_left within, List.length_append] at length
    have stands : front ++ ['}', '}'] <+: text := whole ▸ List.take_prefix cut text
    obtain ⟨back, rfl⟩ := stands
    refine ⟨front.length, '}', '}', length.symm, by decide, back, ?_⟩
    rw [List.append_assoc, List.drop_left]

def Segment.folded (text : List Char) (segment : Segment) : Segment :=
  ⟨foldLineEndings segment.code, foldedOffset text segment.start, foldedOffset text segment.stop⟩

theorem segments_foldLineEndings {text : List Char} {cuts : List Nat}
    (firm : ∀ cut ∈ cuts, Firm text cut) :
    segments (foldLineEndings text) (cuts.map (foldedOffset text)) =
      (segments text cuts).map (Segment.folded text) := by
  induction cuts with
  | nil => rfl
  | cons start cuts ih =>
    cases cuts with
    | nil => rfl
    | cons cut cuts =>
      have first := firm start List.mem_cons_self
      have second := firm cut (List.mem_cons_of_mem start List.mem_cons_self)
      have later := ih fun other member => firm other (List.mem_cons_of_mem start member)
      simp only [List.map_cons, segments, ← second.foldedOffset_sub,
        Text.slice_foldedOffset first.uncut second.uncut_before] at later ⊢
      rw [later]
      rfl

end TemplateLexer.Tag
