import Mathlib.Algebra.GroupWithZero.Nat
import TemplateLexer.Lexer.Run
import TemplateLexer.Proofs.Text.Occurrence

/-! Template text cut into regions from left to right: plain text, and at opening braces a raw
block, a comment or a tag. The tokens of a region follow from what it holds and from the
regions on either side of it. -/

set_option autoImplicit false

namespace TemplateLexer

/-- Only the last region may be a comment that is not closed. -/
inductive Shape where
  | text
  | raw (block : RawBlock)
  | comment (closed : Bool)
  | tag (cuts : List Nat)
  deriving DecidableEq, Repr

structure Region where
  shape : Shape
  content : List Char
  deriving DecidableEq, Repr

namespace Region

def segments (region : Region) : List Tag.Segment :=
  match region.shape with
  | .tag cuts => Tag.segments region.content cuts
  | .text | .raw _ | .comment _ => []

def afterMark (first : Bool) (code : List Char) : List Char :=
  if first && Lexer.opensWithDash code then code.tail else code

/-- Code without trim marks. A lone dash in a tag is the mark before it. -/
def unmarked (first last : Bool) (code : List Char) : List Char :=
  if last && Lexer.endsWithDash (afterMark first code) then (afterMark first code).dropLast
  else afterMark first code

def trimsBefore (region : Region) : Bool :=
  region.segments.head?.any fun segment => Lexer.opensWithDash segment.code

def trimsAfter (region : Region) : Bool :=
  region.segments.getLast?.any fun segment =>
    Lexer.endsWithDash (afterMark (region.segments.length = 1) segment.code)

def values (region : Region) : List (List Char) :=
  region.segments.mapIdx fun i segment =>
    Text.trim (unmarked (i = 0) (i + 1 = region.segments.length) segment.code)

/-- The tokens of a region that begins at `start`, between its neighbours. Text that trims to
nothing has no token. -/
def tokens (start : Nat) (before after : Option Region) (region : Region) : List (Token Nat) :=
  let whole (kind : Kind) (value : List Char) : Token Nat :=
    ⟨⟨kind, value⟩, start, start + region.content.length⟩
  match region.shape with
  | .text =>
    let left :=
      if before.any trimsAfter then Text.trimLeft region.content else region.content
    let value := if after.any trimsBefore then Text.trimRight left else left
    if value.isEmpty then [] else [whole .text value]
  | .raw block => [whole .raw (Text.slice region.content block.contentStart block.contentStop)]
  | .comment true => [whole .comment (Text.slice region.content 3 (region.content.length - 3))]
  | .comment false => [whole .comment (region.content.drop 3)]
  | .tag _ =>
    region.segments.mapIdx fun i segment =>
      ⟨⟨if i = 0 then .tag else .filter,
        Text.trim (unmarked (i = 0) (i + 1 = region.segments.length) segment.code)⟩,
        start + segment.start, start + segment.stop⟩

def opening (strict : Bool) (text : List Char) : Except Fault Region :=
  match RawBlock.read text with
  | .found block => .ok ⟨.raw block, text.take block.stop⟩
  | .unclosed => .error .unclosedRawBlock
  | .absent =>
    if Text.startsWith ['{', '{', '#'] text then
      match Text.indexOf? ['#', '}', '}'] (text.drop 3) with
      | some length => .ok ⟨.comment true, text.take (length + 6)⟩
      | none => if strict then .error .unterminatedComment else .ok ⟨.comment false, text⟩
    else
      match Tag.cuts? text with
      | some cuts => .ok ⟨.tag cuts, text.take (cuts.getLastD 0)⟩
      | none => .error .unclosedTag

variable {strict : Bool} {text : List Char} {region : Region} {n : Nat}

theorem opening_eq_ok_iff : opening strict text = .ok region ↔
    (∃ block, RawBlock.read text = .found block ∧
      region = ⟨.raw block, text.take block.stop⟩) ∨
    (∃ length, RawBlock.read text = .absent ∧ Text.startsWith ['{', '{', '#'] text = true ∧
      Text.indexOf? ['#', '}', '}'] (text.drop 3) = some length ∧
      region = ⟨.comment true, text.take (length + 6)⟩) ∨
    (RawBlock.read text = .absent ∧ Text.startsWith ['{', '{', '#'] text = true ∧
      Text.indexOf? ['#', '}', '}'] (text.drop 3) = none ∧ strict = false ∧
      region = ⟨.comment false, text⟩) ∨
    (∃ cuts, RawBlock.read text = .absent ∧ Text.startsWith ['{', '{', '#'] text = false ∧
      Tag.cuts? text = some cuts ∧ region = ⟨.tag cuts, text.take (cuts.getLastD 0)⟩) := by
  -- The cases follow the order in which the lexer tries the constructs.
  unfold opening
  cases RawBlock.read text with
  | found block => simpa using eq_comm
  | unclosed => simp
  | absent =>
    cases Text.startsWith ['{', '{', '#'] text with
    | true =>
      cases Text.indexOf? ['#', '}', '}'] (text.drop 3) with
      | some length => simpa using eq_comm
      | none =>
        cases strict with
        | true => simp
        | false => simpa using eq_comm
    | false =>
      cases Tag.cuts? text with
      | some cuts => simpa using eq_comm
      | none => simp

theorem length_le_of_closeComment (closed : Text.indexOf? ['#', '}', '}'] (text.drop 3) = some n) :
    n + 6 ≤ text.length := by
  have room := (Text.indexOf?_eq_some_iff_isPrefix.mp closed).2.1.length_le
  simp only [List.length_drop, List.length_cons, List.length_nil] at room
  omega

theorem slice_comment (closed : Text.indexOf? ['#', '}', '}'] (text.drop 3) = some n) :
    Text.slice (text.take (n + 6)) 3 ((text.take (n + 6)).length - 3) = (text.drop 3).take n := by
  rw [List.length_take, Nat.min_eq_left (length_le_of_closeComment closed),
    Text.slice_take (by omega), Text.slice]
  rfl

theorem shape_ne_text (opened : opening strict text = .ok region) : region.shape ≠ .text := by
  rcases opening_eq_ok_iff.mp opened with
    ⟨_, _, rfl⟩ | ⟨_, _, _, _, rfl⟩ | ⟨_, _, _, _, rfl⟩ | ⟨_, _, _, _, rfl⟩ <;> nofun

theorem tokens_of_shape_ne (other : region.shape ≠ .text) (start : Nat)
    (before after : Option Region) :
    region.tokens start before after = region.tokens start none none := by
  unfold tokens
  split
  · next text => exact absurd text other
  all_goals rfl

theorem content_isPrefix (opened : opening strict text = .ok region) : region.content <+: text := by
  rcases opening_eq_ok_iff.mp opened with
    ⟨_, _, rfl⟩ | ⟨_, _, _, _, rfl⟩ | ⟨_, _, _, _, rfl⟩ | ⟨_, _, _, _, rfl⟩
  · exact List.take_prefix _ _
  · exact List.take_prefix _ _
  · exact List.prefix_refl _
  · exact List.take_prefix _ _

theorem content_ne_nil (opened : opening strict text = .ok region) (more : text ≠ []) :
    region.content ≠ [] := by
  have taken {length : Nat} (positive : 0 < length) : text.take length ≠ [] := by
    simp [List.take_eq_nil_iff, more, Nat.pos_iff_ne_zero.mp positive]
  rcases opening_eq_ok_iff.mp opened with
    ⟨_, found, rfl⟩ | ⟨_, _, _, _, rfl⟩ | ⟨_, _, _, _, rfl⟩ | ⟨_, _, _, closed, rfl⟩
  · exact taken (RawBlock.ne_nil_of_read found).2
  · exact taken (Nat.succ_pos _)
  · exact more
  · exact taken (Tag.Scan.getLastD_finish? closed)

theorem drop_ne_nil (found : Text.indexOf? ['{', '{'] text = some n) : text.drop n ≠ [] := by
  intro nothing
  have starts := (Text.indexOf?_eq_some_iff_isPrefix.mp found).2.1
  rw [nothing] at starts
  exact nomatch List.prefix_nil.mp starts

theorem length_drop_lt (found : Text.indexOf? ['{', '{'] text = some n)
    (opened : opening strict (text.drop n) = .ok region) :
    (text.drop (n + region.content.length)).length < text.length := by
  have long := List.length_pos_iff.mpr (content_ne_nil opened (drop_ne_nil found))
  have more := List.length_pos_iff.mpr (drop_ne_nil found)
  rw [List.length_drop] at more ⊢
  omega

/-- The regions of a text and, if it cannot be cut to its end, the fault at the opening braces
that follow them. -/
def cut (strict : Bool) (text : List Char) : List Region × Option Fault :=
  match _ : Text.indexOf? ['{', '{'] text with
  | none => (if text.isEmpty then [] else [⟨.text, text⟩], none)
  | some n =>
    match _ : opening strict (text.drop n) with
    | .error fault => ([⟨.text, text.take n⟩], some fault)
    | .ok region =>
      let (later, fault) := cut strict (text.drop (n + region.content.length))
      (⟨.text, text.take n⟩ :: region :: later, fault)
termination_by text.length
decreasing_by exact length_drop_lt ‹_› ‹_›

theorem cut_of_none (nowhere : Text.indexOf? ['{', '{'] text = none) :
    cut strict text = (if text.isEmpty then [] else [⟨.text, text⟩], none) := by
  unfold cut
  split
  · rfl
  · next n found => exact nomatch nowhere.symm.trans found

theorem cut_of_ok (found : Text.indexOf? ['{', '{'] text = some n)
    (opened : opening strict (text.drop n) = .ok region) :
    cut strict text =
      (⟨.text, text.take n⟩ :: region ::
        (cut strict (text.drop (n + region.content.length))).1,
        (cut strict (text.drop (n + region.content.length))).2) := by
  rw [cut]
  split
  · next nowhere => exact nomatch nowhere.symm.trans found
  · next m first =>
    cases first.symm.trans found
    split
    · next fault failed => exact nomatch failed.symm.trans opened
    · next other opened' =>
      cases opened'.symm.trans opened
      rfl

theorem cut_of_error {fault : Fault} (found : Text.indexOf? ['{', '{'] text = some n)
    (failed : opening strict (text.drop n) = .error fault) :
    cut strict text = ([⟨.text, text.take n⟩], some fault) := by
  rw [cut]
  split
  · next nowhere => exact nomatch nowhere.symm.trans found
  · next m first =>
    cases first.symm.trans found
    split
    · next other failed' =>
      cases failed'.symm.trans failed
      rfl
    · next region opened => exact nomatch opened.symm.trans failed

theorem cut_nil : cut strict [] = ([], none) :=
  cut_of_none rfl

theorem opening_of_mem_cut (member : region ∈ (cut strict text).1) :
    region.shape = .text ∨
      ∃ rest, ['{', '{'] <+: rest ∧ opening strict rest = .ok region := by
  fun_induction cut strict text with
  | case1 text nowhere =>
    cases text with
    | nil => exact nomatch member
    | cons c rest =>
      obtain rfl := List.mem_singleton.mp member
      exact .inl rfl
  | case2 text n found fault opened =>
    obtain rfl := List.mem_singleton.mp member
    exact .inl rfl
  | case3 text n found construct opened later fault cut ih =>
    rw [cut] at ih
    rcases List.mem_cons.mp member with rfl | member
    · exact .inl rfl
    · rcases List.mem_cons.mp member with rfl | member
      · exact .inr ⟨text.drop n, (Text.indexOf?_eq_some_iff_isPrefix.mp found).2.1, opened⟩
      · exact ih member

/-- Nothing of a text that can be cut to its end is lost between its regions. -/
theorem flatten_cut (whole : (cut strict text).2 = none) :
    ((cut strict text).1.map content).flatten = text := by
  -- The cases of `cut`: no braces, braces that open nothing, and a construct.
  fun_induction cut strict text with
  | case1 text nowhere =>
    cases text with
    | nil => rfl
    | cons c rest => simp
  | case2 text n found fault opened => exact nomatch whole
  | case3 text n found region opened later fault cut ih =>
    rw [cut] at ih
    have front : region.content <+: text.drop n := content_isPrefix opened
    obtain ⟨back, same⟩ := front
    have rest : text.drop (n + region.content.length) = back := by
      rw [← List.drop_drop, ← same, List.drop_left]
    simp only [List.map_cons, List.flatten_cons, ih whole, rest, same, List.take_append_drop]

theorem sum_length_cut (whole : (cut strict text).2 = none) :
    ((cut strict text).1.map fun region => region.content.length).sum = text.length := by
  have same := congrArg List.length (flatten_cut whole)
  rwa [List.length_flatten, List.map_map] at same

def emit (start : Nat) (before : Option Region) : List Region → List (Token Nat)
  | [] => []
  | region :: later =>
    region.tokens start before later.head? ++
      emit (start + region.content.length) (some region) later

-- Of the two only the text looks at its neighbours.
theorem emit_piece (solid : region.shape ≠ .text) (start : Nat) (before : Option Region)
    (text : List Char) (later : List Region) :
    emit start before (⟨.text, text⟩ :: region :: later) =
      tokens start before (some region) ⟨.text, text⟩ ++
        (region.tokens (start + text.length) none none ++
          emit (start + text.length + region.content.length) (some region) later) := by
  simp only [emit, List.head?_cons, tokens_of_shape_ne solid]

end Region

end TemplateLexer
