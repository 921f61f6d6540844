import TemplateLexer.Proofs.Tag.Cuts

/-! Tags scanned by offsets in the source that they stand in. A scan looks at nothing in front of
its tag: where it asks for the character before the last one, a context is open, so that it has read
one. What stands behind the tag makes no difference either. -/

set_option autoImplicit false

namespace TemplateLexer

/-- The character at an offset. Offsets below zero count from the end of the text. -/
def Text.characterAt? (text : List Char) (offset : Int) : Option Char :=
  if 0 ≤ offset then text[offset.toNat]?
  else if offset.natAbs ≤ text.length then text[text.length - offset.natAbs]?
  else none

abbrev Looking (Result : Type) := StateM (List Int) Result

namespace Looking

variable {Result Other : Type} {source : List Char} {start n : Nat}

def characterAt? (source : List Char) (offset : Int) : Looking (Option Char) := do
  modify (offset :: ·)
  return Text.characterAt? source offset

def goesOn (source : List Char) (c : Char) (offset : Int) : Looking Bool :=
  if offset < source.length then do
    let found ← characterAt? source offset
    return found = some c
  else return false

/-- The computation comes to `result`, and all it looks up stands in the source, from `start` on. -/
def Within (source : List Char) (start : Nat) (looking : Looking Result) (result : Result) : Prop :=
  ∀ noted, ∃ fresh, looking.run noted = (result, fresh ++ noted) ∧
    ∀ offset ∈ fresh, (start : Int) ≤ offset ∧ offset < source.length

theorem Within.pure (result : Result) : Within source start (pure result) result :=
  fun _ => ⟨[], rfl, List.forall_mem_nil _⟩

theorem Within.bind {looking : Looking Result} {next : Result → Looking Other} {result : Result}
    {other : Other} (first : Within source start looking result)
    (later : Within source start (next result) other) :
    Within source start (looking >>= next) other := by
  intro noted
  obtain ⟨fresh, run, inside⟩ := first noted
  obtain ⟨more, goesOn, beside⟩ := later (fresh ++ noted)
  refine ⟨more ++ fresh, ?_, fun offset member => ?_⟩
  · rw [StateT.run_bind, run, List.append_assoc]
    exact goesOn
  · rcases List.mem_append.mp member with behind | before
    · exact beside offset behind
    · exact inside offset before

theorem within_characterAt? (behind : start ≤ n) (inside : n < source.length) :
    Within source start (characterAt? source n) source[n]? := by
  intro noted
  refine ⟨[(n : Int)], rfl, fun offset member => ?_⟩
  rw [List.mem_singleton.mp member]
  omega

theorem within_goesOn (c : Char) (behind : start ≤ n) :
    Within source start (goesOn source c n) (decide (source[n]? = some c)) := by
  unfold goesOn
  split
  · next inside => exact (within_characterAt? behind (by omega)).bind (.pure _)
  · next outside =>
    have nothing : source[n]? = none := List.getElem?_eq_none_iff.mpr (by omega)
    rw [nothing]
    exact .pure false

end Looking

namespace Tag

variable {source : List Char} {start : Nat} {scan : Scan} {c : Char}

namespace Contexts

def openBraceAt (source : List Char) (contexts : Contexts) (offset : Int) : Looking Contexts :=
  if contexts.head? = some .literal then do
    let before ← Looking.characterAt? source (offset - 2)
    return if before = some '$' then .bracket :: contexts else contexts
  else return contexts.openInner .bracket

def slashAt (source : List Char) (contexts : Contexts) (offset : Int) : Looking Contexts :=
  if contexts.head?.any Context.isQuote then return contexts
  else do
    if ← Looking.goesOn source '*' offset then return .comment :: contexts
    else if contexts.head? = some .comment then do
      let before ← Looking.characterAt? source (offset - 2)
      return if before = some '*' then contexts.tail else contexts
    else return contexts

def readAt (source : List Char) (contexts : Contexts) (c : Char) (offset : Int) :
    Looking Contexts :=
  match c with
  | '{' => contexts.openBraceAt source offset
  | '/' => contexts.slashAt source offset
  | c => return contexts.read none c none

def isPipeAt (source : List Char) (contexts : Contexts) (c : Char) (offset : Int) : Looking Bool :=
  if c = '|' ∧ contexts.head? = some .bracket then Looking.goesOn source '>' offset
  else return false

end Contexts

def scanOn (source : List Char) (contexts : Contexts) (offset : Int) (cuts : List Int) :
    Looking Reading :=
  if _inside : offset < source.length then do
    match ← Looking.characterAt? source offset with
    | none => return .outside
    | some c =>
      if contexts.isEnd c then return .closed ((offset + 1) :: cuts).reverse
      else do
        let inner ← contexts.readAt source c (offset + 1)
        let pipe ← contexts.isPipeAt source c (offset + 1)
        scanOn source inner (offset + 1) (if pipe then (offset + 2) :: cuts else cuts)
  else return .unclosed
termination_by (source.length - offset).toNat

def scanAt (source : List Char) (start : Int) : Reading × List Int :=
  (scanOn source [] start [start + 2]).run []

structure Scan.Stands (source : List Char) (start : Nat) (scan : Scan) : Prop where
  before : 0 < scan.offset → scan.before = source[start + scan.offset - 1]?
  moved : scan.contexts ≠ [] → 0 < scan.offset

namespace Scan.Stands

theorem read (here : source[start + scan.offset]? = some c) (next : Option Char) :
    (scan.read c next).Stands source start :=
  ⟨fun _ => here.symm, fun _ => Nat.succ_pos _⟩

-- The character before the last one is looked up only with a context open, and then it is one that
-- the scan has read.
theorem within_before (stands : scan.Stands source start)
    (inside : start + scan.offset < source.length) {top : Context}
    (opened : scan.contexts.head? = some top) :
    Looking.Within source start
      (Looking.characterAt? source ((start + scan.offset + 1 : Nat) - 2)) scan.before := by
  have moved : 0 < scan.offset := by
    refine stands.moved fun none => ?_
    rw [none] at opened
    cases opened
  have place : ((start + scan.offset + 1 : Nat) - 2 : Int) = (start + scan.offset - 1 : Nat) := by
    omega
  rw [place, stands.before moved]
  exact Looking.within_characterAt? (by omega) (by omega)

theorem within_openBraceAt (stands : scan.Stands source start)
    (inside : start + scan.offset < source.length) :
    Looking.Within source start
      (scan.contexts.openBraceAt source (start + scan.offset + 1 : Nat))
      (scan.contexts.openBrace scan.before) := by
  unfold Contexts.openBraceAt
  split
  · next literal =>
    obtain ⟨outer, top⟩ := List.head?_eq_some_iff.mp literal
    refine (stands.within_before inside literal).bind ?_
    rw [top]
    exact .pure _
  · next other =>
    have same : scan.contexts.openBrace scan.before = scan.contexts.openInner .bracket := by
      unfold Contexts.openBrace
      split
      · next top => exact absurd (congrArg List.head? top) other
      · rfl
    rw [same]
    exact .pure _

theorem within_slashAt (stands : scan.Stands source start)
    (inside : start + scan.offset < source.length) :
    Looking.Within source start
      (scan.contexts.slashAt source (start + scan.offset + 1 : Nat))
      (scan.contexts.slash scan.before source[start + scan.offset + 1]?) := by
  unfold Contexts.slashAt Contexts.slash
  split
  · exact .pure _
  · refine (Looking.within_goesOn '*' (by omega)).bind ?_
    by_cases star : source[start + scan.offset + 1]? = some '*'
    · simp only [star, decide_true, if_true]
      exact .pure _
    · simp only [star, decide_false, Bool.false_eq_true, if_false]
      split
      · next comment =>
        refine (stands.within_before inside comment).bind ?_
        simp only [comment, decide_true, Bool.true_and, decide_eq_true_eq]
        exact .pure _
      · next other =>
        simp only [other, decide_false, Bool.false_and, Bool.false_eq_true, if_false]
        exact .pure _

theorem within_readAt (stands : scan.Stands source start)
    (inside : start + scan.offset < source.length) (c : Char) :
    Looking.Within source start
      (scan.contexts.readAt source c (start + scan.offset + 1 : Nat))
      (scan.contexts.read scan.before c source[start + scan.offset + 1]?) := by
  unfold Contexts.readAt
  split
  · exact stands.within_openBraceAt inside
  · exact stands.within_slashAt inside
  · next brace slash =>
    have same : scan.contexts.read scan.before c source[start + scan.offset + 1]? =
        scan.contexts.read none c none := by
      unfold Contexts.read
      split <;> simp_all
    rw [same]
    exact .pure _

end Scan.Stands

theorem within_isPipeAt (contexts : Contexts) (c : Char) {n : Nat} (behind : start ≤ n) :
    Looking.Within source start (contexts.isPipeAt source c n) (contexts.isPipe c source[n]?) := by
  unfold Contexts.isPipeAt
  split
  · next bar =>
    simp only [Contexts.isPipe, bar.1, bar.2, decide_true, Bool.true_and, Bool.and_true]
    exact Looking.within_goesOn '>' behind
  · next other =>
    have mute : contexts.isPipe c source[n]? = false := by
      by_cases bar : c = '|'
      · have inner : contexts.head? ≠ some .bracket := fun top => other ⟨bar, top⟩
        simp [Contexts.isPipe, inner]
      · exact Contexts.isPipe_of_ne bar
    rw [mute]
    exact .pure _

def Scan.reading (start : Nat) (scan : Scan) (text : List Char) : Reading :=
  match scan.finish? text with
  | none => .unclosed
  | some cuts => .closed (cuts.map fun cut : Nat => (start : Int) + cut)

theorem Scan.reading_of_isEnd {text : List Char} (last : scan.contexts.isEnd c = true) :
    scan.reading start (c :: text) =
      .closed (((start + scan.offset + 1 : Nat) : Int) ::
        scan.cuts.map fun cut : Nat => (start : Int) + cut).reverse := by
  simp [reading, finish?, last, Int.add_assoc]

theorem Scan.reading_cons {text : List Char} (goes : scan.contexts.isEnd c = false) :
    scan.reading start (c :: text) = (scan.read c text.head?).reading start text := by
  simp [reading, finish?, goes]

-- The induction is on what is left of the source.
theorem within_scanOn {text : List Char} (stands : scan.Stands source start)
    (rest : source.drop (start + scan.offset) = text) :
    Looking.Within source start
      (scanOn source scan.contexts (start + scan.offset : Nat)
        (scan.cuts.map fun cut : Nat => (start : Int) + cut))
      (scan.reading start text) := by
  induction text generalizing scan with
  | nil =>
    have outside : source.length ≤ start + scan.offset := List.drop_eq_nil_iff.mp rest
    rw [scanOn, dif_neg (by omega)]
    exact .pure _
  | cons c text ih =>
    have here : source[start + scan.offset]? = some c := by
      rw [← List.head?_drop, rest]
      rfl
    have next : source[start + scan.offset + 1]? = text.head? := by
      rw [← List.head?_drop, ← List.drop_drop, rest]
      rfl
    have inside := (List.getElem?_eq_some_iff.mp here).1
    have looked := Looking.within_characterAt? (Nat.le_add_right start scan.offset) inside
    rw [here] at looked
    rw [scanOn, dif_pos (by omega)]
    refine looked.bind ?_
    dsimp only
    split
    · next last =>
      rw [Scan.reading_of_isEnd last]
      exact .pure _
    · next goes =>
      have reads := stands.within_readAt inside c
      have pipes := @within_isPipeAt source start scan.contexts c (start + scan.offset + 1) (by omega)
      rw [next] at reads pipes
      rw [Scan.reading_cons (by simpa using goes)]
      refine reads.bind (pipes.bind ?_)
      have behind : source.drop (start + (scan.read c text.head?).offset) = text := by
        have step : start + (scan.read c text.head?).offset = start + scan.offset + 1 := rfl
        rw [step, ← List.drop_drop, rest]
        rfl
      have cuts : ((scan.read c text.head?).cuts.map fun cut : Nat => (start : Int) + cut) =
          if scan.contexts.isPipe c text.head? then
            ((start + scan.offset : Nat) + 2 : Int) ::
              scan.cuts.map fun cut : Nat => (start : Int) + cut
          else scan.cuts.map fun cut : Nat => (start : Int) + cut := by
        simp only [Scan.read]
        split
        · simp [Int.add_assoc]
        · rfl
      have later := ih (Scan.Stands.read here text.head?) behind
      rw [cuts] at later
      exact later

theorem readAt_eq_reading (source : List Char) (start : Nat) :
    readAt source start = Scan.start.reading start (source.drop start) := by
  have front : Text.readingFrom? source start = some (source.drop start) :=
    if_pos (Int.natCast_nonneg start)
  rw [readAt, front]
  rfl

/-- A scan by offsets finds the same, and looks at nothing outside the source or before the tag. -/
theorem scanAt_eq (source : List Char) (start : Nat) :
    (scanAt source start).1 = readAt source start ∧
      ∀ offset ∈ (scanAt source start).2, (start : Int) ≤ offset ∧ offset < source.length := by
  have stands : Scan.start.Stands source start :=
    ⟨fun moved => absurd moved (Nat.lt_irrefl 0), fun opened => absurd rfl opened⟩
  obtain ⟨looked, run, inside⟩ := within_scanOn stands rfl []
  have same : scanAt source start = (readAt source start, looked) := by
    rw [readAt_eq_reading]
    rw [List.append_nil] at run
    exact run
  rw [same]
  exact ⟨rfl, inside⟩

def Reading.shift (distance : Int) : Reading → Reading
  | .closed cuts => .closed (cuts.map (distance + ·))
  | .outside => .outside
  | .unclosed => .unclosed

theorem readAt_append_right (front text : List Char) :
    readAt (front ++ text) front.length = (readAt text 0).shift front.length := by
  have here := readAt_eq_reading text 0
  rw [readAt_eq_reading, List.drop_left]
  simp only [Int.ofNat_zero, List.drop_zero] at here
  rw [here, Scan.reading, Scan.reading]
  cases Scan.start.finish? text with
  | none => rfl
  | some cuts => simp [Reading.shift]

theorem readAt_append_left {text : List Char} {cuts : List Int} (closed : readAt text 0 = .closed cuts)
    (back : List Char) : readAt (text ++ back) 0 = .closed cuts := by
  have here := readAt_eq_reading text 0
  have there := readAt_eq_reading (text ++ back) 0
  simp only [Int.ofNat_zero, List.drop_zero] at here there
  rw [here, Scan.reading] at closed
  cases ended : Scan.start.finish? text with
  | none => simp [ended] at closed
  | some found =>
    rw [there, Scan.reading, Scan.finish?_append_right ended]
    rwa [ended] at closed

/-- A scan reads its own tag only. What stands in front of the tag moves the cuts along, what stands
behind it changes nothing, and all that a scan by offsets looks up stands in the source and not in
front of the tag. -/
theorem readAt_own_tag (front text back : List Char) :
    (readAt (front ++ text) front.length = .unclosed ↔ readAt text 0 = .unclosed) ∧
      (readAt text 0 = .unclosed ∨ ∃ cuts, readAt text 0 = .closed cuts) ∧
      (∀ cuts, readAt text 0 = .closed cuts →
        readAt (front ++ text) front.length = .closed (cuts.map (front.length + ·)) ∧
          readAt (text ++ back) 0 = .closed cuts) ∧
      ∀ (source : List Char) (start : Nat), (scanAt source start).1 = readAt source start ∧
        ∀ offset ∈ (scanAt source start).2, (start : Int) ≤ offset ∧ offset < source.length := by
  have moved := readAt_append_right front text
  have ends := readAt_eq_reading text 0
  refine ⟨?_, ?_, fun cuts closed => ⟨?_, readAt_append_left closed back⟩, scanAt_eq⟩
  · rw [moved]
    cases readAt text 0 <;> simp [Reading.shift]
  · simp only [Int.ofNat_zero, List.drop_zero] at ends
    rw [ends, Scan.reading]
    cases Scan.start.finish? text with
    | none => exact .inl rfl
    | some cuts => exact .inr ⟨_, rfl⟩
  · rw [moved, closed, Reading.shift]

/-- The dollar sign is looked up behind the brace that follows it. -/
theorem readAt_own_tag_interpolation :
    let text := "\x7b\x7b `$\x7ba|>b\x7d` \x7d\x7d".toList
    readAt text 0 = .closed [2, 9, 15] ∧ readAt ("`$".toList ++ text) 2 = .closed [4, 11, 17] ∧
      readAt (text ++ "|>\x7d".toList) 0 = .closed [2, 9, 15] ∧
      (scanAt text 0).2.count 4 = 2 ∧ (0 : Int) ≤ 4 ∧ 4 < (text.length : Int) := by
  intro text
  have closed : readAt text 0 = .closed [2, 9, 15] := by decide +kernel
  have looked : (scanAt text 0).2.count 4 = 2 := by decide +kernel
  obtain ⟨_, _, cuts, looks⟩ := readAt_own_tag "`$".toList text "|>\x7d".toList
  obtain ⟨moved, kept⟩ := cuts _ closed
  exact ⟨closed, moved, kept, looked,
    (looks text 0).2 4 (List.count_pos_iff.mp (looked ▸ Nat.two_pos))⟩

end Tag

end TemplateLexer
