import TemplateLexer.Proofs.Lexer.Stop
import TemplateLexer.Proofs.Text.Lines
import TemplateLexer.Report

/-! What a report shows of the line at fault. A position counts line feeds while a report counts
every line boundary, so the two speak of the same line as long as no other boundary comes before
the end of that line. -/

set_option autoImplicit false

namespace TemplateLexer

namespace Report

/-- The text ends with a line behind its number and, on a line of their own, two carets under the
characters of that line at `place`. -/
def Underlines (shown number line : List Char) (place : Nat) : Prop :=
  ∃ head margin : List Char,
    shown = head ++ '\n' :: (number ++ " | ".toList ++ line) ++ '\n' :: (margin ++ ['^', '^']) ∧
    margin.length = (number ++ " | ".toList).length + place ∧
    ∀ c ∈ margin, c = ' ' ∨ c = '|'

variable {report : Report} {place : Nat}

theorem carets_eq (column : report.position.column = place + 1)
    (room : place + 2 ≤ report.sourceLine.length) : report.carets = ['^', '^'] := by
  have two : min 2 ((report.sourceLine.length : Int) - report.position.column + 1) = 2 := by omega
  simp only [carets, two]
  rfl

theorem underlines_render (column : report.position.column = place + 1)
    (room : place + 2 ≤ report.sourceLine.length) (filename : List Char) :
    Underlines (render filename report) (Text.decimal report.position.line) report.sourceLine
      place := by
  have pad : (report.position.column - 1).toNat = place := by omega
  have bar : "|\n".toList = ['|', '\n'] := rfl
  refine ⟨"error: ".toList ++ report.message ++ ['\n'] ++
    List.replicate ((Text.decimal report.position.line).length + 1) ' ' ++ "--> ".toList ++
    filename ++ [':'] ++ Text.decimal report.position.line ++ [':'] ++
    Text.decimal report.position.column ++ ['\n'] ++
    List.replicate ((Text.decimal report.position.line).length + 1) ' ' ++ ['|'],
    List.replicate ((Text.decimal report.position.line).length + 1) ' ' ++ "| ".toList ++
      List.replicate place ' ', ?_, ?_, ?_⟩
  · unfold render
    simp only [pad, carets_eq column room, bar, List.append_assoc, List.cons_append,
      List.nil_append]
  · simp only [List.length_append, List.length_replicate, String.length_toList]
    rfl
  · intro c member
    rw [List.mem_append, List.mem_append] at member
    rcases member with (gap | rule) | gap
    · exact .inl (List.eq_of_mem_replicate gap)
    · simpa [or_comm] using rule
    · exact .inl (List.eq_of_mem_replicate gap)

theorem sourceLine_eq {earlier : List (List Char)} {line : List Char}
    (number : report.position.line = earlier.length + 1)
    (same : (Text.lines report.source).take (earlier.length + 1) = earlier ++ [line]) :
    report.sourceLine = Text.dropLineEnding line := by
  have here : (Text.lines report.source)[earlier.length]? = some line := by
    rw [← List.getElem?_take_of_lt (Nat.lt_succ_self _), same, List.getElem?_concat_length]
  have index : (report.position.line - 1).toNat = earlier.length := by omega
  rw [sourceLine, if_pos (by omega), index, here]

end Report

variable {strict : Bool} {source : List Char} {offset : Nat}

-- The position of braces counts the lines in front of theirs, and the characters in front of them on
-- it.
theorem exists_feedLineAt (braces : ['{', '{'] <+: source.drop offset) :
    ∃ earlier lead more, Text.FeedLineAt source offset earlier (lead ++ '{' :: '{' :: more) ∧
      earlier.flatten.length + lead.length = offset ∧
      (LineIndex.ofText source).position offset = ⟨earlier.length + 1, lead.length + 1, offset⟩ := by
  obtain ⟨rest, behind⟩ := braces
  have behind : source.drop offset = '{' :: '{' :: rest := behind.symm
  obtain ⟨earlier, count, whole, lines⟩ :=
    Text.exists_feedLines_append (source.take offset) (source.drop offset)
  obtain ⟨more, later, first⟩ := Text.exists_feedLinesFrom_cons
    ('{' :: (Text.lastLine (source.take offset)).reverse) '{' rest
  rw [List.take_append_drop, behind, Text.feedLinesFrom_of_ne_feed (by decide), first,
    List.reverse_cons, List.reverse_reverse, List.append_assoc, List.singleton_append] at lines
  have inside : offset < source.length := by
    by_contra outside
    rw [List.drop_eq_nil_of_le (by omega)] at behind
    exact nomatch behind
  have taken : (source.take offset).length = offset := by
    rw [List.length_take, Nat.min_eq_left (Nat.le_of_lt inside)]
  have length := congrArg List.length whole
  rw [List.length_append, taken] at length
  refine ⟨earlier, _, more, ⟨⟨later, lines⟩, by omega, ?_⟩, length, ?_⟩
  · simp only [List.length_append, List.length_cons]
    omega
  · rw [LineIndex.position_ofText, taken, count, Position.mk.injEq]
    omega

/-- A report names the line that the braces at fault stand on. The lines up to that one are the same
by every boundary exactly if no other boundary than a line feed ends one of them in front of more text,
and then the report shows that line without its ending and underlines the braces. -/
theorem underlines_of_tokenize_error {failure : Failure}
    (failed : tokenize strict source = .error failure) :
    let report := failure.fault.report source failure.offset
    ∃ earlier line, Text.FeedLineAt source failure.offset earlier line ∧
      report.position.line = earlier.length + 1 ∧
      ((Text.lines source).take (earlier.length + 1) = earlier ++ [line] ↔
        Text.BreaksAtFeeds (earlier ++ [line]).flatten) ∧
      (Text.BreaksAtFeeds (earlier ++ [line]).flatten →
        Text.WithoutEnding line report.sourceLine ∧
        ['{', '{'] <+: report.sourceLine.drop (failure.offset - earlier.flatten.length) ∧
        ∀ filename, Report.Underlines (report.render filename) (Text.decimal report.position.line)
          report.sourceLine (failure.offset - earlier.flatten.length)) := by
  obtain ⟨front, last, stop⟩ := exists_stop_of_error failed
  obtain ⟨earlier, lead, more, stands, length, position⟩ := exists_feedLineAt stop.braces
  obtain ⟨later, lines⟩ := stands.counted
  have agree := Text.take_lines_eq_iff (lines.trans (List.append_cons ..))
  rw [List.length_append, List.length_singleton] at agree
  have place : failure.offset - earlier.flatten.length = lead.length := by omega
  intro report
  have position : report.position = ⟨earlier.length + 1, lead.length + 1, failure.offset⟩ := position
  have number : report.position.line = earlier.length + 1 := by rw [position]
  have column : report.position.column = lead.length + 1 := by rw [position]
  refine ⟨earlier, _, stands, number, agree, fun breaks => ?_⟩
  -- The braces end no line, so they stay when its ending is dropped.
  have shown : report.sourceLine = Text.dropLineEnding (lead ++ '{' :: '{' :: more) :=
    Report.sourceLine_eq number (agree.mpr breaks)
  have kept := Text.dropLineEnding_append_cons (d := '{') (by decide) (lead ++ ['{']) more
  simp only [List.append_assoc, List.singleton_append, ← shown] at kept
  have room : lead.length + 2 ≤ report.sourceLine.length := by simp [kept]
  refine ⟨?_, ?_, fun filename => ?_⟩
  · have member : lead ++ '{' :: '{' :: more ∈ Text.feedLines source := by simp [lines]
    rw [List.flatten_append, List.flatten_singleton] at breaks
    rw [shown]
    exact Text.withoutEnding_dropLineEnding member breaks.right_of_append
  · rw [kept, place, List.drop_left]
    exact ⟨_, rfl⟩
  · rw [place]
    exact Report.underlines_render column room filename

/-- A line feed with a carriage return in front of it ends one line, not two. -/
theorem underlines_of_tokenize_error_returnFeed :
    let source := "a\r\nb \x7b\x7b c\r\nd".toList
    let report := Fault.unclosedTag.report source 5
    tokenize false source = .error ⟨.unclosedTag, 5⟩ ∧ report.sourceLine = "b \x7b\x7b c".toList ∧
      ∃ earlier line, Text.FeedLineAt source 5 earlier line ∧
        report.position.line = earlier.length + 1 ∧
        (Text.lines source).take (earlier.length + 1) = earlier ++ [line] ∧
        Text.WithoutEnding line report.sourceLine ∧
        ['{', '{'] <+: report.sourceLine.drop (5 - earlier.flatten.length) ∧
        ∀ filename, Report.Underlines (report.render filename) (Text.decimal report.position.line)
          report.sourceLine (5 - earlier.flatten.length) := by
  have failed : tokenize false "a\r\nb \x7b\x7b c\r\nd".toList = .error ⟨.unclosedTag, 5⟩ := by
    decide +kernel
  have breaks : Text.BreaksAtFeeds "a\r\nb \x7b\x7b c\r\nd".toList := by decide +kernel
  refine ⟨failed, by decide +kernel, ?_⟩
  obtain ⟨earlier, line, stands, number, agree, shows⟩ := underlines_of_tokenize_error failed
  have upTo : Text.BreaksAtFeeds (earlier ++ [line]).flatten := breaks.prefix stands.isPrefix
  exact ⟨earlier, line, stands, number, agree.mpr upTo, shows upTo⟩

/-- A carriage return alone ends a line of the report and no line of the position. -/
theorem not_forall_withoutEnding :
    ¬ ∀ (strict : Bool) (source : List Char) (failure : Failure),
      tokenize strict source = .error failure →
      ∃ earlier line, Text.FeedLineAt source failure.offset earlier line ∧
        Text.WithoutEnding line (failure.fault.report source failure.offset).sourceLine := by
  intro always
  have failed : tokenize false "a\rb\n\x7b\x7b c".toList = .error ⟨.unclosedTag, 4⟩ := by
    decide +kernel
  obtain ⟨earlier, line, ⟨⟨later, lines⟩, starts, stops⟩, shown⟩ := always _ _ _ failed
  have other : (Fault.unclosedTag.report "a\rb\n\x7b\x7b c".toList 4).sourceLine = ['b'] := by
    decide +kernel
  have two : Text.feedLines "a\rb\n\x7b\x7b c".toList =
      [['a', '\r', 'b', '\n'], ['{', '{', ' ', 'c']] := by
    decide +kernel
  rw [two] at lines
  cases earlier with
  | nil =>
    obtain ⟨rfl, -⟩ := List.cons.inj lines
    exact absurd stops (by decide)
  | cons first earlier =>
    cases earlier with
    | nil =>
      obtain ⟨rfl, -⟩ := List.cons.inj (List.cons.inj lines).2
      obtain ⟨ending, -, whole⟩ := shown.whole
      have whole : ['{', '{', ' ', 'c'] = ['b'] ++ ending := other ▸ whole
      exact absurd (List.cons.inj whole).1 (by decide)
    | cons second earlier => simp at lines

end TemplateLexer
