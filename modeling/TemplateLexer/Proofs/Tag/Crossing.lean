import TemplateLexer.Tag.Scan
import TemplateLexer.Text.Blank

/-! Reading a stretch of a tag that does not end it. A stretch is read with the character
after it at hand, so that neighbouring stretches compose. -/

set_option autoImplicit false

namespace TemplateLexer.Tag

def isPlain (c : Char) : Bool :=
  c ∉ ['{', '}', '\'', '"', '`', '/', '|']

theorem isPlain_of_isBlank {c : Char} (blank : Text.isBlank c = true) : isPlain c = true := by
  simp only [isPlain, List.mem_cons, List.not_mem_nil, or_false, decide_eq_true_eq, not_or]
  refine ⟨?_, ?_, ?_, ?_, ?_, ?_, ?_⟩ <;> rintro rfl <;> exact absurd blank (by decide)

theorem Context.ofQuote?_cases {c : Char} {quote : Context} (opens : ofQuote? c = some quote) :
    (c = '\'' ∧ quote = .single) ∨ (c = '"' ∧ quote = .double) ∨ (c = '`' ∧ quote = .literal) := by
  unfold ofQuote? at opens
  split at opens
  · exact .inl ⟨rfl, (Option.some.inj opens).symm⟩
  · exact .inr (.inl ⟨rfl, (Option.some.inj opens).symm⟩)
  · exact .inr (.inr ⟨rfl, (Option.some.inj opens).symm⟩)
  · exact nomatch opens

theorem Context.eq_of_ofQuote? {c d : Char} {quote : Context} (left : ofQuote? c = some quote)
    (right : ofQuote? d = some quote) : c = d := by
  rcases ofQuote?_cases left with ⟨rfl, rfl⟩ | ⟨rfl, rfl⟩ | ⟨rfl, rfl⟩ <;>
    rcases ofQuote?_cases right with ⟨rfl, same⟩ | ⟨rfl, same⟩ | ⟨rfl, same⟩ <;>
    first | rfl | exact nomatch same

namespace Contexts

variable {contexts : Contexts} {before next : Option Char} {c : Char}

theorem read_of_ne (openBrace : c ≠ '{') (closeBrace : c ≠ '}') (slash : c ≠ '/') :
    contexts.read before c next =
      match Context.ofQuote? c with
      | some quote => contexts.toggleQuote quote
      | none => contexts := by
  unfold read
  split
  · exact absurd rfl openBrace
  · exact absurd rfl closeBrace
  · exact absurd rfl slash
  · rfl

theorem read_slash_bracket {outer : Contexts} (apart : next ≠ some '*') :
    read (.bracket :: outer) before '/' next = .bracket :: outer := by
  simp [read, slash, Context.isQuote, apart]

theorem read_slash_comment {outer : Contexts} (apart : next ≠ some '*') :
    read (.comment :: outer) (some '*') '/' next = outer := by
  simp [read, slash, Context.isQuote, apart]

theorem ofQuote?_eq_none (single : c ≠ '\'') (double : c ≠ '"') (literal : c ≠ '`') :
    Context.ofQuote? c = none := by
  unfold Context.ofQuote?
  split
  · exact absurd rfl single
  · exact absurd rfl double
  · exact absurd rfl literal
  · rfl

@[simp] theorem isEnd_cons_cons (inner outer : Context) (rest : Contexts) :
    isEnd (inner :: outer :: rest) c = false := by
  simp [isEnd]

theorem isEnd_of_ne (other : c ≠ '}') : contexts.isEnd c = false := by
  simp [isEnd, other]

theorem isPipe_of_ne (other : c ≠ '|') : contexts.isPipe c next = false := by
  simp [isPipe, other]

theorem isPipe_of_next_ne (apart : next ≠ some '>') : contexts.isPipe c next = false := by
  simp [isPipe, apart]

-- What follows matters only where a comment or a pipe could begin.
theorem read_congr {other : Option Char} (same : next = some '*' ↔ other = some '*') :
    contexts.read before c next = contexts.read before c other := by
  unfold read
  split
  · rfl
  · rfl
  · simp only [slash, same]
  · rfl

-- What came before matters only in a literal and in a comment.
theorem read_bracket_congr {outer : Contexts} {other : Option Char} :
    read (.bracket :: outer) before c next = read (.bracket :: outer) other c next := by
  unfold read
  split
  · rfl
  · rfl
  · simp [slash]
  · rfl

-- Whatever else stands in a bracket leaves it open.
theorem length_lt_read {outer : Contexts} (other : c ≠ '}') :
    outer.length < (read (.bracket :: outer) before c next).length := by
  have kept : outer.length < (Context.bracket :: outer).length := Nat.lt_succ_self _
  have grown (inner : Context) : outer.length < (inner :: Context.bracket :: outer).length :=
    Nat.lt_succ_of_lt kept
  unfold read
  split
  · exact grown .bracket
  · exact absurd rfl other
  · by_cases star : next = some '*'
    · have opens : slash (.bracket :: outer) before next = .comment :: .bracket :: outer := by
        rw [slash, star]
        rfl
      rw [opens]
      exact grown .comment
    · have same : slash (.bracket :: outer) before next = .bracket :: outer :=
        read_slash_bracket star
      rwa [same]
  · split
    · next quote opens =>
      rcases Context.ofQuote?_cases opens with ⟨_, rfl⟩ | ⟨_, rfl⟩ | ⟨_, rfl⟩
      · exact grown .single
      · exact grown .double
      · exact grown .literal
    · exact kept

theorem eq_brace_of_read {outer : Contexts} (closes : read (.bracket :: outer) before c next = outer) :
    c = '}' := by
  by_cases brace : c = '}'
  · exact brace
  · have longer : outer.length < (read (.bracket :: outer) before c next).length :=
      length_lt_read brace
    rw [closes] at longer
    exact absurd longer (Nat.lt_irrefl _)

-- In an opaque context only the end of that context means something, and in a literal also the
-- opening of an interpolation.
theorem read_opaque {top : Context} {outer : Contexts} (closed : top.isOpaque = true)
    (quote : Context.ofQuote? c ≠ some top) (comment : top = .comment → c ≠ '/')
    (interpolation : top = .literal → c = '{' → before ≠ some '$') :
    read (top :: outer) before c next = top :: outer := by
  unfold read
  -- A bracket is not opaque; in the other contexts a brace, a slash and a quote are read apart.
  split
  · cases top with
    | bracket => exact nomatch closed
    | literal => exact if_neg (interpolation rfl rfl)
    | single | double | comment => rfl
  · cases top with
    | bracket => exact nomatch closed
    | single | double | literal | comment => rfl
  · cases top with
    | bracket => exact nomatch closed
    | comment => exact absurd rfl (comment rfl)
    | single | double | literal => rfl
  · split
    · next other opens =>
      have apart : ¬ some top = some other := fun same => quote (opens.trans same.symm)
      simp only [toggleQuote, List.head?_cons, if_neg apart, openInner, closed, if_true]
    · rfl

end Contexts

/-- A character that leaves these contexts as they are, whatever its neighbours. -/
structure Inert (contexts : Contexts) (c : Char) : Prop where
  read : ∀ before next, contexts.read before c next = contexts
  isPipe : ∀ next, contexts.isPipe c next = false
  isEnd : contexts.isEnd c = false

theorem inert_of_isPlain {c : Char} (contexts : Contexts) (plain : isPlain c = true) :
    Inert contexts c := by
  simp only [isPlain, List.mem_cons, List.not_mem_nil, or_false, decide_eq_true_eq, not_or]
    at plain
  obtain ⟨openBrace, closeBrace, single, double, literal, slash, bar⟩ := plain
  refine ⟨fun before next => ?_, fun next => ?_, ?_⟩
  · rw [Contexts.read_of_ne openBrace closeBrace slash,
      Contexts.ofQuote?_eq_none single double literal]
  · exact Contexts.isPipe_of_ne bar
  · exact Contexts.isEnd_of_ne closeBrace

-- Within an opaque context, apart from a literal, anything but what ends it is inert.
theorem inert_opaque {c : Char} {top : Context} (outer : Contexts) (closed : top.isOpaque = true)
    (straight : top ≠ .literal) (quote : Context.ofQuote? c ≠ some top)
    (comment : top = .comment → c ≠ '/') : Inert (top :: outer) c := by
  have other : top ≠ .bracket := by
    rintro rfl
    exact nomatch closed
  refine ⟨fun before next => ?_, fun next => ?_, ?_⟩
  · exact Contexts.read_opaque closed quote comment fun literal => absurd literal straight
  · simp [Contexts.isPipe, other]
  · simp [Contexts.isEnd, other]

theorem inert_single {c : Char} (outer : Contexts) (other : c ≠ '\'') :
    Inert (.single :: outer) c :=
  inert_opaque outer rfl nofun (fun quote => other (Context.eq_of_ofQuote? quote rfl)) nofun

theorem inert_double {c : Char} (outer : Contexts) (other : c ≠ '"') :
    Inert (.double :: outer) c :=
  inert_opaque outer rfl nofun (fun quote => other (Context.eq_of_ofQuote? quote rfl)) nofun

theorem inert_comment {c : Char} (outer : Contexts) (other : c ≠ '/') :
    Inert (.comment :: outer) c := by
  refine inert_opaque outer rfl nofun ?_ fun _ => other
  unfold Context.ofQuote?
  split <;> nofun

namespace Scan

/-- The scan after a stretch that is followed by `next`; none if the tag ends within it. -/
def cross? (scan : Scan) (next : Option Char) : List Char → Option Scan
  | [] => some scan
  | c :: rest =>
    if scan.contexts.isEnd c then none
    else (scan.read c (rest.head?.or next)).cross? next rest

variable {scan : Scan} {next : Option Char}

theorem finish?_append {crossed : Scan} {stretch rest : List Char}
    (crosses : scan.cross? rest.head? stretch = some crossed) :
    scan.finish? (stretch ++ rest) = crossed.finish? rest := by
  -- The character after the stretch is at hand while it is read, so both scans read the same.
  induction stretch generalizing scan with
  | nil => rw [List.nil_append, Option.some.inj crosses]
  | cons c stretch ih =>
    unfold cross? at crosses
    split at crosses
    · exact nomatch crosses
    · next continues =>
      rw [List.cons_append, finish?, if_neg continues, List.head?_append]
      exact ih crosses

theorem cross?_append (scan : Scan) (next : Option Char) (first second : List Char) :
    scan.cross? next (first ++ second) =
      (scan.cross? (second.head?.or next) first).bind fun crossed => crossed.cross? next second := by
  induction first generalizing scan with
  | nil => rfl
  | cons c first ih =>
    simp only [List.cons_append, cross?, List.head?_append, Option.or_assoc]
    split
    · rfl
    · exact ih _

def past (scan : Scan) (stretch : List Char) (contexts : Contexts) (pipes : List Nat) : Scan where
  contexts := contexts
  before := stretch.getLast?.or scan.before
  offset := scan.offset + stretch.length
  cuts := (pipes.map (scan.offset + ·)).reverse ++ scan.cuts

@[simp] theorem contexts_past (scan : Scan) (stretch : List Char) (contexts : Contexts)
    (pipes : List Nat) : (scan.past stretch contexts pipes).contexts = contexts :=
  rfl

/-- A stretch that is read to these contexts without ending the tag, and has these pipes. -/
def Leads (scan : Scan) (next : Option Char) (stretch : List Char) (contexts : Contexts)
    (pipes : List Nat) : Prop :=
  scan.cross? next stretch = some (scan.past stretch contexts pipes)

theorem past_past (scan : Scan) (first second : List Char) (middle contexts : Contexts)
    (pipes more : List Nat) :
    (scan.past first middle pipes).past second contexts more =
      scan.past (first ++ second) contexts (pipes ++ more.map (first.length + ·)) := by
  simp only [past, List.getLast?_append, Option.or_assoc, List.length_append, List.map_append,
    List.map_map, List.reverse_append, List.append_assoc, Nat.add_assoc, Function.comp_def]

theorem read_eq_past {c : Char} (mute : scan.contexts.isPipe c next = false) :
    scan.read c next = scan.past [c] (scan.contexts.read scan.before c next) [] := by
  simp [read, past, mute]

namespace Leads

variable {contexts middle : Contexts} {pipes more : List Nat}

theorem nil (scan : Scan) (next : Option Char) : scan.Leads next [] scan.contexts [] :=
  rfl

theorem append {first second : List Char}
    (leads : scan.Leads (second.head?.or next) first middle pipes)
    (later : (scan.past first middle pipes).Leads next second contexts more) :
    scan.Leads next (first ++ second) contexts (pipes ++ more.map (first.length + ·)) := by
  unfold Leads at *
  rw [cross?_append, leads, Option.bind_some, later, past_past]

theorem finish? {rest : List Char} {stretch : List Char}
    (leads : scan.Leads rest.head? stretch contexts pipes) :
    scan.finish? (stretch ++ rest) = (scan.past stretch contexts pipes).finish? rest :=
  finish?_append leads

/-- A character that is no pipe and does not end the tag. -/
theorem single {c : Char} (continues : scan.contexts.isEnd c = false)
    (mute : scan.contexts.isPipe c next = false)
    (reads : scan.contexts.read scan.before c next = contexts) :
    scan.Leads next [c] contexts [] := by
  unfold Leads
  rw [cross?, if_neg (by simp [continues]), List.head?_nil, Option.none_or, read_eq_past mute,
    reads]
  rfl

/-- A stretch between two such characters. -/
theorem enclose {c d : Char} {inside : List Char} {inner last : Contexts}
    (continues : scan.contexts.isEnd c = false) (mute : ∀ next, scan.contexts.isPipe c next = false)
    (opens : scan.contexts.read scan.before c (inside.head?.or (some d)) = inner)
    (leads : (scan.past [c] inner []).Leads (some d) inside last pipes)
    (continuesLast : last.isEnd d = false) (muteLast : last.isPipe d next = false)
    (closes : last.read (inside.getLast?.or (some c)) d next = contexts) :
    scan.Leads next (c :: (inside ++ [d])) contexts (pipes.map (1 + ·)) := by
  have opening : scan.Leads ((inside ++ [d]).head?.or next) [c] inner [] := by
    have same : (inside ++ [d]).head?.or next = inside.head?.or (some d) := by
      cases inside <;> rfl
    exact same ▸ single continues (mute _) opens
  have whole := append opening (append leads (single continuesLast muteLast closes))
  simpa using whole

theorem quoted {c : Char} {quote : Context} {inside : List Char} {outer : Contexts}
    (top : scan.contexts = .bracket :: outer) (opens : Context.ofQuote? c = some quote)
    (leads : (scan.past [c] (quote :: scan.contexts) []).Leads (some c) inside
      (quote :: scan.contexts) pipes) :
    scan.Leads next (c :: (inside ++ [c])) scan.contexts (pipes.map (1 + ·)) := by
  rw [top] at leads ⊢
  rcases Context.ofQuote?_cases opens with ⟨rfl, rfl⟩ | ⟨rfl, rfl⟩ | ⟨rfl, rfl⟩
  all_goals
    refine enclose (Contexts.isEnd_of_ne (by decide)) (fun _ => Contexts.isPipe_of_ne (by decide))
      ?_ leads (Contexts.isEnd_of_ne (by decide)) (Contexts.isPipe_of_ne (by decide)) rfl
    rw [top]
    rfl

theorem of_inert {stretch : List Char} (inert : ∀ c ∈ stretch, Inert scan.contexts c) :
    scan.Leads next stretch scan.contexts [] := by
  induction stretch generalizing scan with
  | nil => exact nil scan next
  | cons c stretch ih =>
    have first := inert c List.mem_cons_self
    have opening : scan.Leads (stretch.head?.or next) [c] scan.contexts [] :=
      single first.isEnd (first.isPipe _) (first.read _ _)
    exact append opening (ih fun other member => inert other (List.mem_cons_of_mem c member))

theorem enclose_inert {c d : Char} {inside : List Char} {inner : Contexts}
    (continues : scan.contexts.isEnd c = false) (mute : ∀ next, scan.contexts.isPipe c next = false)
    (opens : scan.contexts.read scan.before c (inside.head?.or (some d)) = inner)
    (inert : ∀ e ∈ inside, Inert inner e)
    (continuesLast : inner.isEnd d = false) (muteLast : inner.isPipe d next = false)
    (closes : inner.read (inside.getLast?.or (some c)) d next = contexts) :
    scan.Leads next (c :: (inside ++ [d])) contexts [] :=
  enclose continues mute opens (of_inert inert) continuesLast muteLast closes

end Leads

def opened : Scan :=
  ⟨[.bracket, .bracket], some '{', 2, [2]⟩

theorem finish?_start (text : List Char) :
    start.finish? ('{' :: '{' :: text) = opened.finish? text :=
  rfl

theorem finish?_close {rest : List Char} (level : scan.contexts = [.bracket, .bracket]) :
    scan.finish? ('}' :: '}' :: rest) = some ((scan.offset + 2) :: scan.cuts).reverse := by
  simp [finish?, level, read, Contexts.isEnd, Contexts.read, Contexts.closeBrace,
    Contexts.isPipe]

end Scan

end TemplateLexer.Tag
