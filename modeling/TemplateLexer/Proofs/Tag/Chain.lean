import TemplateLexer.Proofs.Tag.Cuts
import TemplateLexer.Proofs.Text.Trimming

/-! Codes in a tag, with pipes between them. What matters of a code is the contexts it leads
between: blanks and trim marks around it can be dropped, and blanks be put there instead. -/

set_option autoImplicit false

namespace TemplateLexer.Tag

def isMargin (c : Char) : Bool :=
  Text.isBlank c || c = '-'

theorem isPlain_of_isMargin {c : Char} (margin : isMargin c = true) : isPlain c = true := by
  rcases Bool.or_eq_true_iff.mp margin with blank | dash
  · exact isPlain_of_isBlank blank
  · rw [of_decide_eq_true dash]
    decide

def Surrounds (code value : List Char) : Prop :=
  ∃ lead tail : List Char, (∀ c ∈ lead, isMargin c = true) ∧ (∀ c ∈ tail, isMargin c = true) ∧
    code = lead ++ (value ++ tail)

theorem Surrounds.trans {code middle value : List Char} (outer : Surrounds code middle)
    (inner : Surrounds middle value) : Surrounds code value := by
  obtain ⟨lead, tail, leading, trailing, rfl⟩ := outer
  obtain ⟨first, last, leads, trails, rfl⟩ := inner
  refine ⟨lead ++ first, last ++ tail, fun c member => ?_, fun c member => ?_, by simp⟩
  · exact (List.mem_append.mp member).elim (leading c) (leads c)
  · exact (List.mem_append.mp member).elim (trails c) (trailing c)

theorem surrounds_trim (code : List Char) : Surrounds code (Text.trim code) := by
  have margin {c : Char} (blank : Text.isBlank c = true) : isMargin c = true := by
    rw [isMargin, blank, Bool.true_or]
  obtain ⟨lead, tail, leading, trailing, same⟩ := Text.exists_blanks_trim code
  refine ⟨lead, tail, fun c member => margin (leading c member),
    fun c member => margin (trailing c member), ?_⟩
  rw [← List.append_assoc]
  exact same

/-- A stretch without pipes and without the end of the tag is read from these contexts to the
`last` ones, with a character before it and one after it. -/
def Crosses (contexts : Contexts) (before next : Option Char) (last : Contexts) :
    List Char → Prop
  | [] => contexts = last
  | c :: rest =>
    contexts.isEnd c = false ∧ contexts.isPipe c (rest.head?.or next) = false ∧
      Crosses (contexts.read before c (rest.head?.or next)) (some c) next last rest

namespace Crosses

variable {contexts last outer : Contexts} {before next : Option Char} {stretch : List Char}

theorem leads {scan : Scan} (crosses : Crosses scan.contexts scan.before next last stretch) :
    scan.Leads next stretch last [] := by
  induction stretch generalizing scan with
  | nil =>
    have same : scan.contexts = last := crosses
    exact same ▸ Scan.Leads.nil scan next
  | cons c rest ih =>
    obtain ⟨continues, mute, later⟩ := crosses
    have first : scan.Leads (rest.head?.or next) [c]
        (scan.contexts.read scan.before c (rest.head?.or next)) [] :=
      .single continues mute rfl
    exact first.append (ih later)

theorem cons {c mark : Char} {code back : List Char} (ends : ¬ contexts.isEnd c)
    (pipe : ¬ contexts.isPipe c (code ++ mark :: back).head?)
    (crosses : Crosses (contexts.read before c (code ++ mark :: back).head?) (some c) (some mark)
      last code) : Crosses contexts before (some mark) last (c :: code) := by
  have next : (code ++ mark :: back).head? = code.head?.or (some mark) := by
    rw [List.head?_append]
    rfl
  rw [next] at pipe crosses
  exact ⟨Bool.eq_false_iff.mpr ends, Bool.eq_false_iff.mpr pipe, crosses⟩

theorem append_iff {first second : List Char} :
    Crosses contexts before next last (first ++ second) ↔
      ∃ middle, Crosses contexts before (second.head?.or next) middle first ∧
        Crosses middle (first.getLast?.or before) next last second := by
  induction first generalizing contexts before with
  | nil => simp [Crosses]
  | cons c first ih =>
    have ending : (c :: first).getLast?.or before = first.getLast?.or (some c) := by
      rw [List.getLast?_cons]
      cases first.getLast? <;> rfl
    simp only [List.cons_append, Crosses, List.head?_append, Option.or_assoc, ih, ending]
    constructor
    · rintro ⟨continues, mute, middle, left, right⟩
      exact ⟨middle, ⟨continues, mute, left⟩, right⟩
    · rintro ⟨middle, ⟨continues, mute, left⟩, right⟩
      exact ⟨continues, mute, middle, left, right⟩

theorem plain_iff (plain : ∀ c ∈ stretch, isPlain c = true) :
    Crosses contexts before next last stretch ↔ contexts = last := by
  induction stretch generalizing before with
  | nil => rfl
  | cons c rest ih =>
    have inert := inert_of_isPlain contexts (plain c List.mem_cons_self)
    simp only [Crosses, inert.isEnd, inert.isPipe, inert.read, true_and,
      ih fun other member => plain other (List.mem_cons_of_mem c member)]

-- What comes before a code does not matter, since it begins between braces.
theorem change_before {other : Option Char}
    (crosses : Crosses (.bracket :: outer) before next last stretch) :
    Crosses (.bracket :: outer) other next last stretch := by
  cases stretch with
  | nil => exact crosses
  | cons c rest =>
    obtain ⟨continues, mute, later⟩ := crosses
    rw [Contexts.read_bracket_congr] at later
    exact ⟨continues, mute, later⟩

-- Neither does what follows, unless a comment or a pipe could begin across the boundary.
theorem change_next {other : Option Char} (star : next ≠ some '*')
    (otherStar : other ≠ some '*') (otherArrow : other ≠ some '>')
    (crosses : Crosses contexts before next last stretch) :
    Crosses contexts before other last stretch := by
  induction stretch generalizing contexts before with
  | nil => exact crosses
  | cons c rest ih =>
    obtain ⟨continues, mute, later⟩ := crosses
    cases rest with
    | nil =>
      have same : contexts.read before c other = contexts.read before c next :=
        Contexts.read_congr (iff_of_false otherStar star)
      exact ⟨continues, Contexts.isPipe_of_next_ne otherArrow, same.trans later⟩
    | cons d rest => exact ⟨continues, mute, ih later⟩

-- A value is read between blanks as it is between other margins.
theorem of_surrounds {code value : List Char} (surrounds : Surrounds code value)
    (star : next ≠ some '*') (crosses : Crosses (.bracket :: outer) before next last code) :
    Crosses (.bracket :: outer) (some ' ') (some ' ') last value := by
  obtain ⟨lead, tail, leading, trailing, rfl⟩ := surrounds
  obtain ⟨_, first, rest⟩ := append_iff.mp crosses
  obtain rfl := (plain_iff fun c member => isPlain_of_isMargin (leading c member)).mp first
  obtain ⟨_, body, final⟩ := append_iff.mp rest
  obtain rfl := (plain_iff fun c member => isPlain_of_isMargin (trailing c member)).mp final
  have follows : tail.head?.or next ≠ some '*' := by
    cases tail with
    | nil => exact star
    | cons c tail =>
      rintro ⟨⟩
      exact absurd (trailing '*' List.mem_cons_self) (by decide)
  exact (body.change_next follows (by decide) (by decide)).change_before

theorem pad {code : List Char}
    (crosses : Crosses (.bracket :: outer) (some ' ') (some ' ') last code) :
    Crosses (.bracket :: outer) before next last (' ' :: (code ++ [' '])) := by
  have blank : ∀ c ∈ [' '], isPlain c = true := List.forall_mem_singleton.mpr rfl
  refine append_iff.mpr ⟨.bracket :: outer, (plain_iff blank).mpr rfl, ?_⟩
  exact append_iff.mpr ⟨last, crosses, (plain_iff blank).mpr rfl⟩

end Crosses

/-- Codes between blanks, one after the other. The last is read up to the braces that close the
tag, the others up to a pipe. -/
inductive Chain : Contexts → List (List Char) → Prop where
  | last {outer : Contexts} {code : List Char}
      (reads : Crosses (.bracket :: outer) (some ' ') (some ' ') [.bracket, .bracket] code) :
      Chain outer [code]
  | pipe {outer inner : Contexts} {code : List Char} {later : List (List Char)}
      (reads : Crosses (.bracket :: outer) (some ' ') (some ' ') (.bracket :: inner) code)
      (chain : Chain inner later) : Chain outer (code :: later)

def spelled : List (List Char) → List Char
  | [] => []
  | [code] => ' ' :: (code ++ [' ']) ++ ['}', '}']
  | code :: later => ' ' :: (code ++ [' ']) ++ '|' :: '>' :: spelled later

def spelledCuts (start : Nat) : List (List Char) → List Nat
  | [] => []
  | code :: later => (start + code.length + 4) :: spelledCuts (start + code.length + 4) later

theorem spelled_cons (code : List Char) (later : List (List Char)) : ∃ mark : List Char,
    mark.length = 2 ∧ spelled (code :: later) = ' ' :: (code ++ [' ']) ++ (mark ++ spelled later) := by
  cases later with
  | nil => exact ⟨['}', '}'], rfl, rfl⟩
  | cons next later => exact ⟨['|', '>'], rfl, rfl⟩

theorem Scan.finish?_pipe {scan : Scan} {outer : Contexts} (level : scan.contexts = .bracket :: outer)
    (text : List Char) : scan.finish? ('|' :: '>' :: text) =
      Scan.finish? ⟨.bracket :: outer, some '>', scan.offset + 2, (scan.offset + 2) :: scan.cuts⟩
        text := by
  simp [finish?, level, read, Contexts.isEnd, Contexts.isPipe, Contexts.read, Context.ofQuote?]

theorem Chain.exists_cons {outer : Contexts} {codes : List (List Char)} (chain : Chain outer codes) :
    ∃ code later, codes = code :: later := by
  cases chain with
  | last => exact ⟨_, _, rfl⟩
  | pipe => exact ⟨_, _, rfl⟩

theorem Chain.finish? {outer : Contexts} {codes : List (List Char)} (chain : Chain outer codes)
    {scan : Scan} (level : scan.contexts = .bracket :: outer) (back : List Char) :
    scan.finish? (spelled codes ++ back) =
      some (scan.cuts.reverse ++ spelledCuts scan.offset codes) := by
  induction chain generalizing scan with
  | @last outer code reads =>
    have leads : scan.Leads (some '}') (' ' :: (code ++ [' '])) [.bracket, .bracket] [] :=
      Crosses.leads (level ▸ reads.pad)
    have split : spelled [code] ++ back = ' ' :: (code ++ [' ']) ++ '}' :: '}' :: back := by
      simp [spelled]
    rw [split, leads.finish?, Scan.finish?_close rfl]
    simp [Scan.past, spelledCuts]
    omega
  | @pipe outer inner code later reads chain ih =>
    have leads : scan.Leads (some '|') (' ' :: (code ++ [' '])) (.bracket :: inner) [] :=
      Crosses.leads (level ▸ reads.pad)
    have split : spelled (code :: later) ++ back =
        ' ' :: (code ++ [' ']) ++ '|' :: '>' :: (spelled later ++ back) := by
      cases chain <;> simp [spelled]
    have place : (scan.past (' ' :: (code ++ [' '])) (.bracket :: inner) []).offset + 2 =
        scan.offset + code.length + 4 := by
      simp [Scan.past]
      omega
    rw [split, leads.finish?, Scan.finish?_pipe rfl, place, ih rfl]
    simp [Scan.past, spelledCuts]

theorem Chain.cuts?_eq {codes : List (List Char)} (chain : Chain [.bracket] codes)
    (back : List Char) :
    cuts? ('{' :: '{' :: (spelled codes ++ back)) = some (2 :: spelledCuts 2 codes) := by
  rw [cuts?, Scan.finish?_start, chain.finish? rfl]
  rfl

/-- A tag that ends does so behind a stretch without pipes, or has a pipe behind one. -/
theorem Scan.finish?_cases {scan : Scan} {text : List Char} {cuts : List Nat}
    (ended : scan.finish? text = some cuts) :
    (∃ code back, text = code ++ '}' :: back ∧
      Crosses scan.contexts scan.before (some '}') [.bracket] code ∧
      cuts = scan.cuts.reverse ++ [scan.offset + code.length + 1]) ∨
    (∃ code back outer, text = code ++ '|' :: '>' :: back ∧
      Crosses scan.contexts scan.before (some '|') (.bracket :: outer) code ∧
      Scan.finish? ⟨.bracket :: outer, some '>', scan.offset + code.length + 2,
        (scan.offset + code.length + 2) :: scan.cuts⟩ back = some cuts) := by
  -- The first character ends the tag, begins a pipe, or belongs to the stretch.
  induction text generalizing scan with
  | nil => exact nomatch ended
  | cons c rest ih =>
    by_cases ends : scan.contexts.isEnd c
    · rw [finish?, if_pos ends] at ended
      simp only [Contexts.isEnd, Bool.and_eq_true, decide_eq_true_eq] at ends
      obtain ⟨rfl, level⟩ := ends
      refine .inl ⟨[], rest, rfl, level, ?_⟩
      rw [← Option.some.inj ended, List.reverse_cons]
      rfl
    · by_cases pipe : scan.contexts.isPipe c rest.head?
      · simp only [Contexts.isPipe, Bool.and_eq_true, decide_eq_true_eq] at pipe
        obtain ⟨⟨rfl, arrow⟩, bracket⟩ := pipe
        obtain ⟨back, rfl⟩ := List.head?_eq_some_iff.mp arrow
        obtain ⟨outer, level⟩ := List.head?_eq_some_iff.mp bracket
        refine .inr ⟨[], back, outer, rfl, level, ?_⟩
        rwa [finish?_pipe level] at ended
      · rw [finish?, if_neg ends] at ended
        have kept : (scan.read c rest.head?).cuts = scan.cuts := if_neg pipe
        have place (code : List Char) :
            scan.offset + 1 + code.length = scan.offset + (c :: code).length := by
          rw [List.length_cons]
          omega
        rcases ih ended with
          ⟨code, back, rfl, crosses, same⟩ | ⟨code, back, outer, rfl, crosses, later⟩
        · refine .inl ⟨c :: code, back, rfl, .cons ends pipe crosses, ?_⟩
          rw [same, kept, ← place]
          rfl
        · refine .inr ⟨c :: code, back, outer, rfl, .cons ends pipe crosses, ?_⟩
          rw [kept] at later
          rw [← place]
          exact later

theorem Contexts.eq_of_closeBrace {contexts : Contexts} (closes : contexts.closeBrace = [.bracket]) :
    contexts = [.bracket, .bracket] := by
  match contexts with
  | [] => exact nomatch closes
  | .bracket :: rest =>
    have same : rest = [.bracket] := closes
    rw [same]
  | .single :: _ | .double :: _ | .literal :: _ | .comment :: _ => exact nomatch closes

-- The brace before the one that ends a tag closes the bracket that the tag began in.
theorem crosses_closing {contexts : Contexts} {before next : Option Char} {code : List Char}
    (crosses : Crosses contexts before next [.bracket] (code ++ ['}'])) :
    Crosses contexts before (some '}') [.bracket, .bracket] code := by
  obtain ⟨middle, body, continues, _, closes⟩ := Crosses.append_iff.mp crosses
  have closing : middle.closeBrace = [.bracket] := closes
  exact Contexts.eq_of_closeBrace closing ▸ body

-- The brace before the one that ends a tag is part of its last stretch.
theorem exists_closing {front code : List Char} (closed : ['}', '}'] <:+ front ++ (code ++ ['}']))
    (apart : front.getLast? ≠ some '}') : ∃ body, code = body ++ ['}'] := by
  obtain ⟨before, whole⟩ := closed
  have shorter : before ++ ['}'] = front ++ code := by
    have again : (before ++ ['}']) ++ ['}'] = (front ++ code) ++ ['}'] := by simpa using whole
    exact List.append_cancel_right again
  have last : (front ++ code).getLast? = some '}' := by
    rw [← shorter, List.getLast?_concat]
  rw [List.getLast?_append] at last
  cases ending : code.getLast? with
  | none =>
    rw [ending] at last
    exact absurd last apart
  | some c =>
    rw [ending] at last
    cases last
    exact List.getLast?_eq_some_iff.mp ending

theorem chain_of_finish? {scan : Scan} {outer : Contexts} {front text : List Char}
    {cuts : List Nat} {value : Nat → Segment → List Char}
    (level : scan.contexts = .bracket :: outer) (place : scan.offset = front.length)
    (ended : scan.finish? text = some cuts)
    (closed : ['}', '}'] <:+ (front ++ text).take (cuts.getLastD 0))
    (apart : front.getLast? ≠ some '}')
    (surrounds : ∀ i segment, Surrounds segment.code (value i segment)) :
    ∃ later, cuts = scan.cuts.reverse ++ later ∧
      Chain outer ((segments (front ++ text) (front.length :: later)).mapIdx value) := by
  -- The induction passes from one pipe to the next, with all of the tag up to it in `front`.
  induction size : text.length using Nat.strongRecOn generalizing scan outer front text value with
  | ind n ih =>
    rcases Scan.finish?_cases ended with
      ⟨code, back, rfl, crosses, rfl⟩ | ⟨code, back, inner, rfl, crosses, later⟩
    · have stop : (scan.cuts.reverse ++ [scan.offset + code.length + 1]).getLastD 0 =
          (front ++ (code ++ ['}'])).length := by
        simp [place, Nat.add_assoc]
      have whole : front ++ (code ++ '}' :: back) = front ++ (code ++ ['}']) ++ back := by
        simp
      rw [stop, whole, List.take_left] at closed
      -- The first of the two closing braces belongs to the last stretch, but not to its code.
      obtain ⟨body, rfl⟩ := exists_closing closed apart
      have split : front ++ (body ++ ['}'] ++ '}' :: back) =
          front ++ (body ++ '}' :: '}' :: back) := by
        simp
      have before : scan.offset + (body ++ ['}']).length + 1 - 2 = front.length + body.length := by
        rw [place, List.length_append, List.length_singleton]
        omega
      refine ⟨[scan.offset + (body ++ ['}']).length + 1], rfl, ?_⟩
      rw [segments, split, before, Text.slice_middle]
      exact .last ((crosses_closing (level ▸ crosses)).of_surrounds (surrounds 0 _) (by decide))
    · have split : front ++ (code ++ '|' :: '>' :: back) =
          (front ++ (code ++ ['|', '>'])) ++ back := by
        simp
      have next : scan.offset + code.length + 2 = (front ++ (code ++ ['|', '>'])).length := by
        simp [place, Nat.add_assoc]
      have before : scan.offset + code.length + 2 - 2 = front.length + code.length := by
        omega
      have shorter : back.length < n := by
        rw [← size]
        simp
        omega
      obtain ⟨others, same, chain⟩ := ih back.length shorter rfl next later (split ▸ closed)
        (by simp) (fun i => surrounds (i + 1)) rfl
      refine ⟨(scan.offset + code.length + 2) :: others, by simpa using same, ?_⟩
      rw [segments, before, Text.slice_middle, List.mapIdx_cons, split, next]
      exact .pipe ((level ▸ crosses).of_surrounds (surrounds 0 _) (by decide)) chain

/-- The values in a tag that two adjacent braces close make a chain. -/
theorem chain_of_cuts? {inside : List Char} {cuts : List Nat}
    {value : Nat → Segment → List Char} (ended : cuts? ('{' :: '{' :: inside) = some cuts)
    (closed : ['}', '}'] <:+ ('{' :: '{' :: inside).take (cuts.getLastD 0))
    (surrounds : ∀ i segment, Surrounds segment.code (value i segment)) :
    Chain [.bracket] ((segments ('{' :: '{' :: inside) cuts).mapIdx value) := by
  rw [cuts?, Scan.finish?_start] at ended
  obtain ⟨later, rfl, chain⟩ := @chain_of_finish? _ _ ['{', '{'] _ _ _ rfl rfl ended closed
    (by decide) surrounds
  exact chain

-- The code of a tag without pipes goes up to one character in front of the brace that ends it.
theorem exists_of_segments_eq_singleton {inside : List Char} {cuts : List Nat} {segment : Segment}
    (ended : cuts? ('{' :: '{' :: inside) = some cuts)
    (only : segments ('{' :: '{' :: inside) cuts = [segment]) (more : segment.code ≠ []) :
    ∃ last, Crosses [.bracket, .bracket] (some '{') (some '}') [.bracket] (segment.code ++ [last]) ∧
      ('{' :: '{' :: inside).take (cuts.getLastD 0) =
        ['{', '{'] ++ segment.code ++ [last, '}'] := by
  rw [cuts?, Scan.finish?_start] at ended
  rcases Scan.finish?_cases ended with
    ⟨code, back, rfl, crosses, rfl⟩ | ⟨code, back, outer, rfl, _, later⟩
  · rcases List.eq_nil_or_concat' code with rfl | ⟨body, last, rfl⟩
    · cases only
      exact absurd rfl more
    · have split : '{' :: '{' :: (body ++ [last] ++ '}' :: back) =
          ['{', '{'] ++ (body ++ last :: '}' :: back) := by
        simp
      have stop : Scan.opened.offset + (body ++ [last]).length + 1 - 2 =
          ['{', '{'].length + body.length := by
        simp [Scan.opened]
      have part : Text.slice ('{' :: '{' :: (body ++ [last] ++ '}' :: back)) 2
          (Scan.opened.offset + (body ++ [last]).length + 1 - 2) = body := by
        rw [stop, split]
        exact Text.slice_middle ['{', '{'] body _
      obtain rfl : segment.code = body := by
        rw [← (List.cons.inj only).1]
        exact part
      refine ⟨last, crosses, ?_⟩
      have parts : '{' :: '{' :: (segment.code ++ [last] ++ '}' :: back) =
          (['{', '{'] ++ segment.code ++ [last, '}']) ++ back := by
        simp
      rw [List.getLastD_concat, parts]
      refine List.take_left' ?_
      simp [Scan.opened]
      omega
  · -- A pipe would have parted the tag into two segments at least.
    obtain ⟨cut, cuts, rfl⟩ := Scan.exists_of_finish? later
    cases only

-- A tag with braces apart has one of them in its code, which is not plain then.
theorem closed_of_plain {inside : List Char} {cuts : List Nat} {segment : Segment}
    (ended : cuts? ('{' :: '{' :: inside) = some cuts)
    (only : segments ('{' :: '{' :: inside) cuts = [segment]) (more : segment.code ≠ [])
    (plain : ∀ c ∈ segment.code, isPlain c = true) :
    ['}', '}'] <:+ ('{' :: '{' :: inside).take (cuts.getLastD 0) := by
  obtain ⟨last, crosses, whole⟩ := exists_of_segments_eq_singleton ended only more
  obtain ⟨middle, within, _, _, closes⟩ := Crosses.append_iff.mp crosses
  -- The code opens nothing, so the character behind it closes the inner bracket.
  obtain rfl := (Crosses.plain_iff plain).mp within
  obtain rfl : last = '}' := Contexts.eq_brace_of_read closes
  rw [whole]
  exact List.suffix_append _ _

end TemplateLexer.Tag
