import TemplateLexer.Proofs.Tag.Chain

/-! What stands straight before the cuts of a tag. Each but the last stands behind a pipe, and the
last behind a brace. It stands behind two of them only if nothing keeps the brackets that the tag
began with from being closed one straight after the other. -/

set_option autoImplicit false

namespace TemplateLexer

/-- The marker stands straight before `stop`, and no part of it in front of `start`. -/
def Text.Closes (source mark : List Char) (start stop : Nat) : Prop :=
  start + mark.length ≤ stop ∧ mark <+: source.drop (stop - mark.length)

theorem Text.Closes.of_isPrefix {source text mark : List Char} {start stop n : Nat}
    (closes : Closes text mark start stop) (within : text <+: source.drop n) :
    Closes source mark (n + start) (n + stop) := by
  obtain ⟨room, here⟩ := closes
  refine ⟨by omega, ?_⟩
  have place : n + stop - mark.length = n + (stop - mark.length) := by omega
  obtain ⟨back, whole⟩ := within
  rw [place, ← List.drop_drop, ← whole, List.drop_append]
  exact here.trans (List.prefix_append _ _)

namespace Tag

variable {text : List Char} {cuts : List Nat} {n : Nat}

def Scan.at? (text : List Char) (n : Nat) : Option Scan :=
  start.cross? (text.drop n).head? (text.take n)

theorem Scan.cuts?_of_at? {scan : Scan} (reached : Scan.at? text n = some scan) :
    cuts? text = scan.finish? (text.drop n) := by
  conv_lhs => rw [cuts?, ← List.take_append_drop n text]
  exact finish?_append reached

theorem Scan.at?_append (front stretch back : List Char) :
    Scan.at? (front ++ (stretch ++ back)) (front.length + stretch.length) =
      (Scan.at? (front ++ (stretch ++ back)) front.length).bind fun scan =>
        scan.cross? back.head? stretch := by
  have behind : (front ++ (stretch ++ back)).drop (front.length + stretch.length) = back := by
    rw [← List.drop_drop, List.drop_left, List.drop_left]
  have before : (front ++ (stretch ++ back)).take (front.length + stretch.length) =
      front ++ stretch := by
    rw [List.take_length_add_append, List.take_left]
  rw [Scan.at?, Scan.at?, behind, before, cross?_append, List.drop_left, List.take_left,
    List.head?_append]

/-- Both brackets that the tag began with are open up to the last two of `length` characters. -/
def OpenToTheEnd (text : List Char) (length : Nat) : Prop :=
  ∃ scan, Scan.at? text (length - 2) = some scan ∧ scan.contexts = [.bracket, .bracket]

-- A single bracket is left open straight before the brace that ends a tag.
theorem Scan.exists_cross_of_finish? {scan : Scan} (ended : scan.finish? text = some cuts) :
    ∃ code back crossed, text = code ++ '}' :: back ∧
      scan.cross? (some '}') code = some crossed ∧ crossed.contexts = [.bracket] ∧
      cuts.getLastD 0 = scan.offset + code.length + 1 := by
  induction text generalizing scan with
  | nil => exact nomatch ended
  | cons c rest ih =>
    unfold finish? at ended
    split at ended
    · next last =>
      cases ended
      simp only [Contexts.isEnd, Bool.and_eq_true, decide_eq_true_eq] at last
      obtain ⟨rfl, level⟩ := last
      exact ⟨[], rest, scan, rfl, rfl, level, by simp⟩
    · next goes =>
      obtain ⟨code, back, crossed, rfl, crosses, level, stop⟩ := ih ended
      refine ⟨c :: code, back, crossed, rfl, ?_, level, ?_⟩
      · have next : code.head?.or (some '}') = (code ++ '}' :: back).head? := by
          rw [List.head?_append]
          rfl
        rw [cross?, if_neg goes, next]
        exact crosses
      · rw [stop, List.length_cons]
        simp only [read]
        omega

-- The brackets are closed one straight after the other if the character between is a brace.
theorem Scan.eq_brace_iff {scan crossed : Scan} {c : Char} {next : Option Char}
    (closing : scan.cross? next [c] = some crossed) (level : crossed.contexts = [.bracket]) :
    c = '}' ↔ scan.contexts = [.bracket, .bracket] := by
  rw [cross?] at closing
  split at closing
  · cases closing
  · have reads : scan.contexts.read scan.before c next = [.bracket] := by
      rw [← level, ← Option.some.inj closing]
      rfl
    constructor
    · rintro rfl
      exact Contexts.eq_of_closeBrace reads
    · intro both
      rw [both] at reads
      exact Contexts.eq_brace_of_read reads

theorem adjacent_iff_openToTheEnd (ended : cuts? text = some cuts) :
    ['}', '}'] <+: text.drop (cuts.getLastD 0 - 2) ↔ OpenToTheEnd text (cuts.getLastD 0) := by
  obtain ⟨code, back, crossed, rfl, crosses, level, stop⟩ := Scan.exists_cross_of_finish? ended
  rcases List.eq_nil_or_concat' code with rfl | ⟨body, last, rfl⟩
  · -- At its start the scan has no bracket open yet.
    cases crosses
    cases level
  · rw [Scan.cross?_append] at crosses
    obtain ⟨reached, within, closing⟩ := Option.bind_eq_some_iff.mp crosses
    have place : cuts.getLastD 0 - 2 = body.length := by
      rw [stop, List.length_append, List.length_singleton]
      simp only [Scan.start]
      omega
    have whole : body ++ [last] ++ '}' :: back = body ++ last :: '}' :: back := by simp
    have here : Scan.at? (body ++ last :: '}' :: back) body.length = some reached := by
      rw [Scan.at?, List.drop_left, List.take_left]
      exact within
    have adjacent : ['}', '}'] <+: last :: '}' :: back ↔ last = '}' := by
      simp [List.cons_prefix_cons, eq_comm]
    rw [OpenToTheEnd, whole, place, List.drop_left, adjacent, here, Scan.eq_brace_iff closing level]
    simp

/-- The cuts of a tag behind a first one at `start`: behind each stretch of code a pipe, and behind
the last what ends the tag. -/
inductive Delimits (source ending : List Char) : Nat → List Nat → Prop where
  | pipe {start cut : Nat} {later : List Nat} (mark : Text.Closes source ['|', '>'] start cut)
      (rest : Delimits source ending cut later) : Delimits source ending start (cut :: later)
  | last {start cut : Nat} (mark : Text.Closes source ending start cut) :
      Delimits source ending start [cut]

namespace Delimits

variable {source ending : List Char} {start : Nat} {later : List Nat}

theorem ne_nil (delimits : Delimits source ending start later) : later ≠ [] := by
  cases delimits <;> exact List.cons_ne_nil _ _

theorem of_isPrefix (delimits : Delimits text ending start later) (within : text <+: source.drop n) :
    Delimits source ending (n + start) (later.map (n + ·)) := by
  induction delimits with
  | pipe mark _ ih => exact .pipe (mark.of_isPrefix within) ih
  | last mark => exact .last (mark.of_isPrefix within)

-- A second brace before the last cut is not the end of the marker before the code.
theorem adjacent_iff (delimits : Delimits source ['}'] start later) (positive : 0 < start)
    (apart : source[start - 1]? ≠ some '}') : Delimits source ['}', '}'] start later ↔
      ['}', '}'] <+: source.drop (later.getLastD 0 - 2) := by
  induction delimits with
  | @pipe start cut later mark rest ih =>
    obtain ⟨room, back, whole⟩ := mark
    have arrow : source[cut - 1]? = some '>' := by
      have place : cut - 1 = cut - ['|', '>'].length + 1 := by
        simp only [List.length_cons, List.length_nil] at room ⊢
        omega
      rw [place, ← List.getElem?_drop, ← whole]
      rfl
    have last : (cut :: later).getLastD 0 = later.getLastD 0 := by
      obtain ⟨next, others, rfl⟩ := List.exists_cons_of_ne_nil rest.ne_nil
      rfl
    rw [last, ← ih (by omega) (by rw [arrow]; decide)]
    constructor
    · intro adjacent
      cases adjacent with
      | pipe _ rest => exact rest
      | last => exact absurd rfl rest.ne_nil
    · exact .pipe ⟨room, back, whole⟩
  | @last start cut mark =>
    constructor
    · intro adjacent
      cases adjacent with
      | pipe _ rest => exact absurd rfl rest.ne_nil
      | last mark => exact mark.2
    · intro adjacent
      refine .last ⟨?_, adjacent⟩
      by_contra short
      have room := mark.1
      simp only [List.length_cons, List.length_nil] at room short
      have place : cut - 2 = start - 1 := by omega
      obtain ⟨back, whole⟩ := adjacent
      refine apart ?_
      rw [← place, ← List.head?_drop]
      exact whole ▸ rfl

end Delimits

theorem Scan.delimits_of_finish? {scan : Scan} {front : List Char} (place : scan.offset = front.length)
    (ended : scan.finish? text = some cuts) :
    ∃ later, cuts = scan.cuts.reverse ++ later ∧ Delimits (front ++ text) ['}'] front.length later := by
  -- The induction passes from one pipe to the next, with all of the tag up to it in `front`.
  induction size : text.length using Nat.strongRecOn generalizing scan front text with
  | ind n ih =>
    rcases finish?_cases ended with ⟨code, back, rfl, _, rfl⟩ | ⟨code, back, outer, rfl, _, later⟩
    · refine ⟨[scan.offset + code.length + 1], rfl, .last ⟨?_, ?_⟩⟩
      · rw [place, List.length_singleton]
        omega
      · have behind : scan.offset + code.length + 1 - ['}'].length =
            front.length + code.length := by
          rw [place, List.length_singleton]
          omega
        rw [behind, ← List.drop_drop, List.drop_left, List.drop_left]
        exact ⟨back, rfl⟩
    · have split : front ++ (code ++ '|' :: '>' :: back) =
          (front ++ (code ++ ['|', '>'])) ++ back := by
        simp
      have next : scan.offset + code.length + 2 = (front ++ (code ++ ['|', '>'])).length := by
        simp [place, Nat.add_assoc]
      have shorter : back.length < n := by
        rw [← size]
        simp
        omega
      obtain ⟨others, same, rest⟩ := ih back.length shorter next later rfl
      refine ⟨(scan.offset + code.length + 2) :: others, by simpa using same, .pipe ⟨?_, ?_⟩ ?_⟩
      · rw [place]
        simp only [List.length_cons, List.length_nil]
        omega
      · have behind : scan.offset + code.length + 2 - ['|', '>'].length =
            front.length + code.length := by
          rw [place]
          simp only [List.length_cons, List.length_nil]
          omega
        rw [behind, ← List.drop_drop, List.drop_left, List.drop_left]
        exact ⟨back, rfl⟩
      · rw [next, split]
        exact rest

/-- The cuts of the tag at `start` stand behind its opening braces, behind its pipes, and behind the
brace that ends it. In front of that one stands another exactly if both brackets are open up to
there. -/
theorem delimits_of_cuts? {source : List Char} {start : Nat}
    (braces : ['{', '{'] <+: source.drop start) (ended : cuts? (source.drop start) = some cuts) :
    ∃ later, cuts = 2 :: later ∧ Delimits source ['}'] (start + 2) (later.map (start + ·)) ∧
      (Delimits source ['}', '}'] (start + 2) (later.map (start + ·)) ↔
        OpenToTheEnd (source.drop start) (cuts.getLastD 0)) := by
  obtain ⟨inside, whole⟩ := braces
  have opened := ended
  rw [← whole, cuts?, List.cons_append, List.cons_append, List.nil_append, Scan.finish?_start]
    at opened
  obtain ⟨later, rfl, delimits⟩ := @Scan.delimits_of_finish? _ _ _ ['{', '{'] rfl opened
  have here : Delimits source ['}'] (start + 2) (later.map (start + ·)) :=
    delimits.of_isPrefix ⟨[], by rw [List.append_nil, whole]⟩
  refine ⟨later, rfl, here, ?_⟩
  have brace : source[start + 2 - 1]? ≠ some '}' := by
    have second : source[start + 1]? = some '{' := by
      rw [← List.getElem?_drop, ← whole]
      rfl
    rw [show start + 2 - 1 = start + 1 by omega, second]
    decide
  obtain ⟨front, last, rfl⟩ : ∃ front last, later = front ++ [last] :=
    ⟨_, _, (List.dropLast_concat_getLast delimits.ne_nil).symm⟩
  have far : 2 ≤ last := by
    have first := (bounds_of_cuts? (whole ▸ ended)).2 2 (by simp [Scan.opened])
    rwa [← List.append_assoc, List.getLastD_concat] at first
  have place : (start + last) - 2 = start + (last - 2) := by omega
  rw [← adjacent_iff_openToTheEnd ended, here.adjacent_iff (by omega) brace]
  simp [place]

end Tag

end TemplateLexer
