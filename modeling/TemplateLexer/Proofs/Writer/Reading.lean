import TemplateLexer.Proofs.Lexer.Append
import TemplateLexer.Proofs.Writer.Script

/-! What is written for a writable script is cut into its texts and constructs again. -/

set_option autoImplicit false

namespace TemplateLexer

namespace Tag

theorem getLastD_spelledCuts (start : Nat) (codes : List (List Char)) :
    (spelledCuts start codes).getLastD start = start + (spelled codes).length := by
  induction codes generalizing start with
  | nil => rfl
  | cons code later ih =>
    obtain ⟨mark, two, split⟩ := spelled_cons code later
    rw [spelledCuts, List.getLastD_cons, ih, split]
    simp [two]
    omega

theorem segments_spelled (front : List Char) (codes : List (List Char)) :
    (segments (front ++ spelled codes) (front.length :: spelledCuts front.length codes)).map
      Segment.code = codes.map fun code => ' ' :: (code ++ [' ']) := by
  induction codes generalizing front with
  | nil => rfl
  | cons code later ih =>
    obtain ⟨mark, two, split⟩ := spelled_cons code later
    have stop : front.length + code.length + 4 - 2 =
        front.length + (' ' :: (code ++ [' '])).length := by
      simp
      omega
    have next : front.length + code.length + 4 =
        (front ++ (' ' :: (code ++ [' ']) ++ mark)).length := by
      simp [two]
      omega
    have whole : front ++ (' ' :: (code ++ [' ']) ++ (mark ++ spelled later)) =
        front ++ (' ' :: (code ++ [' ']) ++ mark) ++ spelled later := by
      simp
    rw [spelledCuts, segments, List.map_cons, List.map_cons, split, stop, Text.slice_middle, next,
      whole, ih]

end Tag

namespace Region

variable {region : Region} {values : List (List Char)}

theorem endsWithDash_pad (value : List Char) :
    Lexer.endsWithDash (' ' :: (value ++ [' '])) = false := by
  rw [Lexer.endsWithDash, ← List.cons_append, List.getLast?_concat]
  rfl

theorem afterMark_pad (first : Bool) (value : List Char) :
    afterMark first (' ' :: (value ++ [' '])) = ' ' :: (value ++ [' ']) := by
  simp [afterMark, Lexer.opensWithDash]

theorem unmarked_pad (first last : Bool) (value : List Char) :
    unmarked first last (' ' :: (value ++ [' '])) = ' ' :: (value ++ [' ']) := by
  simp [unmarked, afterMark_pad, endsWithDash_pad]

theorem not_trims_of_pads
    (codes : region.segments.map Tag.Segment.code = values.map fun value => ' ' :: (value ++ [' '])) :
    region.trimsBefore = false ∧ region.trimsAfter = false := by
  have padded : ∀ segment ∈ region.segments, ∃ value : List Char,
      segment.code = ' ' :: (value ++ [' ']) := by
    intro segment member
    have among : segment.code ∈ region.segments.map Tag.Segment.code := List.mem_map_of_mem member
    rw [codes] at among
    obtain ⟨value, _, same⟩ := List.mem_map.mp among
    exact ⟨value, same.symm⟩
  constructor
  · rw [trimsBefore]
    cases head : region.segments.head? with
    | none => rfl
    | some segment =>
      obtain ⟨value, same⟩ := padded segment (List.mem_of_head? head)
      rw [Option.any_some, same]
      rfl
  · rw [trimsAfter]
    cases last : region.segments.getLast? with
    | none => rfl
    | some segment =>
      obtain ⟨value, same⟩ := padded segment (List.mem_of_getLast? last)
      rw [Option.any_some, same, afterMark_pad, endsWithDash_pad]

theorem values_of_pads (trimmed : ∀ value ∈ values, Text.trim value = value)
    (codes : region.segments.map Tag.Segment.code = values.map fun value => ' ' :: (value ++ [' '])) :
    region.values = values := by
  apply List.ext_getElem?
  intro i
  have here := congrArg (·[i]?) codes
  simp only [List.getElem?_map] at here
  rw [Region.values, List.getElem?_mapIdx]
  cases segment : region.segments[i]? with
  | none =>
    rw [segment] at here
    simpa using here.symm
  | some segment =>
    rw [segment, Option.map_some] at here
    obtain ⟨value, place, same⟩ := Option.map_eq_some_iff.mp here.symm
    rw [Option.map_some, place, ← same, unmarked_pad, Text.trim_pad,
      trimmed value (List.mem_of_getElem? place)]

theorem lexemes_tag {cuts : List Nat} {code : List Char} {filters : List (List Char)}
    (shape : region.shape = .tag cuts) (values : region.values = code :: filters) (start : Nat)
    (before after : Option Region) :
    (region.tokens start before after).map Token.toLexeme =
      (Construct.tag code filters).lexemes := by
  rw [tokens, shape]
  rw [Region.values] at values
  cases split : region.segments with
  | nil =>
    rw [split] at values
    cases values
  | cons segment later =>
    rw [split, List.mapIdx_cons] at values
    obtain ⟨rfl, rfl⟩ := List.cons.inj values
    rw [List.mapIdx_cons, List.map_cons, Construct.lexemes, List.mapIdx_eq_zipIdx_map,
      List.mapIdx_eq_zipIdx_map, List.map_map, List.map_map]
    rfl

end Region

namespace Construct

variable {strict : Bool} {before after : List Char} {construct : Construct}

theorem write_eq (after : List Char) (construct : Construct) :
    ∃ inside, construct.write after = '{' :: '{' :: inside := by
  cases construct with
  | raw value => exact ⟨_, rfl⟩
  | comment value => exact ⟨_, rfl⟩
  | tag code filters =>
    rw [write]
    split
    · split <;> exact ⟨_, rfl⟩
    · exact ⟨_, rfl⟩

def region (after : List Char) (construct : Construct) : Region where
  shape :=
    match construct with
    | raw value => .raw ⟨7, 7 + value.length, 7 + value.length + 8⟩
    | comment _ => .comment true
    | tag code filters =>
      .tag (if (tag code filters).isRawTag then [2, 10]
        else 2 :: Tag.spelledCuts 2 (code :: filters))
  content := construct.write after

theorem region_of_isRawTag (after : List Char) (raw : construct.isRawTag = true) :
    (construct.region after =
        ⟨.tag [2, 10], ['{', '{', '-', ' ', 'r', 'a', 'w', ' ', '}', '}']⟩ ∧
      Text.beginsBlank after = true) ∨
    (construct.region after =
        ⟨.tag [2, 10], ['{', '{', ' ', 'r', 'a', 'w', ' ', '-', '}', '}']⟩ ∧
      Text.beginsBlank after = false) := by
  cases construct with
  | raw value => exact nomatch raw
  | comment value => exact nomatch raw
  | tag code filters => cases blank : Text.beginsBlank after <;> simp [region, write, raw, blank]

theorem region_of_not_isRawTag {code : List Char} {filters : List (List Char)}
    (after : List Char) (other : (tag code filters).isRawTag = false) :
    (tag code filters).region after =
      ⟨.tag (2 :: Tag.spelledCuts 2 (code :: filters)),
        '{' :: '{' :: Tag.spelled (code :: filters)⟩ := by
  simp [region, write, other]

theorem write_eq_of_region {shape : Shape} {text : List Char}
    (spelled : construct.region after = ⟨shape, text⟩) : construct.write after = text :=
  congrArg Region.content spelled

theorem read_write {code : List Char} {filters : List (List Char)}
    (writable : (tag code filters).Writable before after)
    (other : (tag code filters).isRawTag = false) (back : List Char) :
    RawBlock.read ('{' :: '{' :: Tag.spelled (code :: filters) ++ back) = .absent := by
  obtain ⟨trimmed, cuts, _⟩ := writable
  rw [RawBlock.read_eq_absent_iff, Option.eq_none_iff_forall_ne_some]
  intro length opens
  -- An opener has no filters, and ends where the tag does; then its name is the tag's code.
  have marked := RawBlock.openerLength?_eq_some_iff.mp opens
  have same := Option.some.inj (marked.cuts?_eq.symm.trans (Tag.cuts?_append_right cuts back))
  cases filters with
  | cons value filters => exact nomatch same
  | nil =>
    obtain ⟨lead, tail, rest, leading, trailing, whole, long⟩ := marked
    have size : length = 2 + code.length + 4 := by simpa [Tag.spelledCuts] using same
    have equal := List.append_inj whole (by simp [Tag.spelled, ← long, size]; omega)
    have closed : ' ' :: (code ++ [' ']) ++ ['}', '}'] =
        lead ++ (['r', 'a', 'w'] ++ tail) ++ ['}', '}'] := by
      simpa [marker, Tag.spelled] using equal.1
    have raw := congrArg Text.trim (List.append_cancel_right closed)
    rw [Text.trim_pad, trimmed code List.mem_cons_self,
      Text.trim_blanks leading trailing rfl rfl] at raw
    simp [isRawTag, raw] at other

theorem opening_tag {text back : List Char} {cuts : List Nat}
    (absent : RawBlock.read (text ++ back) = .absent)
    (hash : Text.startsWith ['{', '{', '#'] (text ++ back) = false)
    (closed : Tag.cuts? text = some cuts) (long : cuts.getLastD 0 = text.length) :
    Region.opening strict (text ++ back) = .ok ⟨.tag cuts, text⟩ := by
  refine Region.opening_eq_ok_iff.mpr
    (.inr (.inr (.inr ⟨cuts, absent, hash, Tag.cuts?_append_right closed back, ?_⟩)))
  rw [long, List.take_left]

theorem opening_raw {value : List Char} (writable : (raw value).Writable before after)
    (back : List Char) :
    Region.opening strict ((raw value).write after ++ back) = .ok ((raw value).region after) := by
  have opens : RawBlock.openerLength? ((raw value).write after ++ back) = some 7 := rfl
  have inside : ((raw value).write after ++ back).drop 7 =
      value ++ (['{', '{', '/', 'r', 'a', 'w', '}', '}'] ++ back) := by
    simp [write]
  have closer : MarkedBy ['/', 'r', 'a', 'w']
      (['{', '{', '/', 'r', 'a', 'w', '}', '}'] ++ back) 8 :=
    ⟨[], [], back, List.forall_mem_nil _, List.forall_mem_nil _, rfl, rfl⟩
  have closes := first?_markerLength?_append markerName_slash_raw writable closer
  rw [← inside] at closes
  have long : ((raw value).write after).length = 7 + value.length + 8 := by
    simp [write]
    omega
  refine Region.opening_eq_ok_iff.mpr (.inl ⟨_, RawBlock.read_eq_found_iff.mpr
    ⟨7, value.length, 8, opens, closes, rfl⟩, ?_⟩)
  exact congrArg (Region.mk _) (List.take_left' long).symm

theorem opening_comment {value : List Char} (writable : (comment value).Writable before after)
    (back : List Char) :
    Region.opening strict ((comment value).write after ++ back) =
      .ok ((comment value).region after) := by
  have hash : Text.startsWith ['{', '{', '#'] ((comment value).write after ++ back) = true := rfl
  have inside : ((comment value).write after ++ back).drop 3 =
      value ++ '#' :: '}' :: '}' :: back := by
    simp [write]
  have closes := Text.indexOf?_closeComment writable back
  rw [← inside] at closes
  have long : ((comment value).write after).length = value.length + 6 := by
    simp [write]
  refine Region.opening_eq_ok_iff.mpr
    (.inr (.inl ⟨value.length, RawBlock.read_eq_absent_of_hash hash, hash, closes, ?_⟩))
  exact congrArg (Region.mk _) (List.take_left' long).symm

/-- A construct is read from what is written for it, whatever is written behind it. -/
theorem opening_write (writable : construct.Writable before after) (back : List Char) :
    Region.opening strict (construct.write after ++ back) = .ok (construct.region after) := by
  cases construct with
  | raw value => exact opening_raw writable back
  | comment value => exact opening_comment writable back
  | tag code filters =>
    cases raw : (tag code filters).isRawTag with
    | true =>
      rcases region_of_isRawTag after raw with ⟨spelled, _⟩ | ⟨spelled, _⟩
      · rw [spelled, write_eq_of_region spelled]
        exact opening_tag rfl rfl rfl rfl
      · rw [spelled, write_eq_of_region spelled]
        exact opening_tag rfl rfl rfl rfl
    | false =>
      have spelled := region_of_not_isRawTag after raw
      have last : (2 :: Tag.spelledCuts 2 (code :: filters)).getLastD 0 =
          ('{' :: '{' :: Tag.spelled (code :: filters)).length := by
        rw [List.getLastD_cons, Tag.getLastD_spelledCuts, List.length_cons, List.length_cons]
        omega
      rw [spelled, write_eq_of_region spelled]
      refine opening_tag (read_write writable raw back) ?_ writable.2.1 last
      rw [Writer.spelled_eq]
      rfl

theorem segments_region {code : List Char} {filters : List (List Char)}
    (other : (tag code filters).isRawTag = false) :
    ((tag code filters).region after).segments.map Tag.Segment.code =
      (code :: filters).map fun value => ' ' :: (value ++ [' ']) := by
  rw [region_of_not_isRawTag after other]
  exact Tag.segments_spelled ['{', '{'] (code :: filters)

-- The trim mark of a written tag is on a side where it trims nothing.
theorem not_trims (writable : construct.Writable before after) :
    ((construct.region after).trimsBefore = true → Text.endsBlank before = false) ∧
      ((construct.region after).trimsAfter = true → Text.beginsBlank after = false) := by
  cases construct with
  | raw value => exact ⟨nofun, nofun⟩
  | comment value => exact ⟨nofun, nofun⟩
  | tag code filters =>
    cases raw : (tag code filters).isRawTag with
    | true =>
      rcases region_of_isRawTag after raw with ⟨spelled, blank⟩ | ⟨spelled, solid⟩
      · rw [spelled]
        have apart := writable.2.2 raw
        exact ⟨fun _ => apart.resolve_right (by simp [blank]), nofun⟩
      · rw [spelled]
        exact ⟨nofun, fun _ => solid⟩
    | false =>
      obtain ⟨front, behind⟩ := Region.not_trims_of_pads (segments_region raw)
      rw [front, behind]
      exact ⟨nofun, nofun⟩

theorem values_region {code : List Char} {filters : List (List Char)}
    (writable : (tag code filters).Writable before after) :
    ((tag code filters).region after).values = code :: filters := by
  cases raw : (tag code filters).isRawTag with
  | true =>
    have same : code = ['r', 'a', 'w'] ∧ filters = [] := by simpa [isRawTag] using raw
    obtain ⟨rfl, rfl⟩ := same
    rcases region_of_isRawTag after raw with ⟨spelled, _⟩ | ⟨spelled, _⟩ <;> rw [spelled] <;> rfl
  | false => exact Region.values_of_pads writable.1 (segments_region raw)

theorem tokens_region (writable : construct.Writable before after) (start : Nat) :
    ((construct.region after).tokens start none none).map Token.toLexeme = construct.lexemes := by
  cases construct with
  | raw value =>
    have content : Text.slice ((raw value).write after) 7 (7 + value.length) = value := by
      simp [write, Text.slice]
    simp [Region.tokens, region, content, lexemes]
  | comment value =>
    have content : Text.slice ((comment value).write after) 3
        (((comment value).write after).length - 3) = value := by
      simp [write, Text.slice]
    simp [Region.tokens, region, content, lexemes]
  | tag code filters => exact Region.lexemes_tag rfl (values_region writable) start none none

end Construct

theorem Region.lexemes_text {text : List Char} {before after : Option Region} (start : Nat)
    (begins : before.any trimsAfter = true → Text.beginsBlank text = false)
    (ends : after.any trimsBefore = true → Text.endsBlank text = false) :
    (Region.tokens start before after ⟨.text, text⟩).map Token.toLexeme = textLexemes text := by
  have left : (if before.any trimsAfter then Text.trimLeft text else text) = text := by
    split
    · next trims => exact Text.trimLeft_eq_self (begins trims)
    · rfl
  have right : (if after.any trimsBefore then Text.trimRight text else text) = text := by
    split
    · next trims => exact Text.trimRight_eq_self (ends trims)
    · rfl
  simp only [tokens, left, right]
  cases text <;> rfl

/-- A written script is lexed as its own lexemes. -/
theorem Script.cut_write {script : Script} (writable : script.Writable) (strict : Bool)
    (start : Nat) {before : Option Region}
    (begins : before.any Region.trimsAfter = true → Text.beginsBlank script.front = false) :
    (Region.cut strict script.write).2 = none ∧
      (Region.emit start before (Region.cut strict script.write).1).map Token.toLexeme =
        script.lexemes := by
  induction script generalizing start before with
  | last text =>
    have nowhere := Text.indexOf?_eq_none_iff.mpr writable
    rw [write, Region.cut_of_none nowhere]
    cases text with
    | nil => exact ⟨rfl, rfl⟩
    | cons c text =>
      refine ⟨rfl, ?_⟩
      have alone : (Region.tokens start before none ⟨.text, c :: text⟩).map Token.toLexeme =
          textLexemes (c :: text) := Region.lexemes_text start begins nofun
      simpa [Region.emit, lexemes] using alone
  | piece text construct later ih =>
    obtain ⟨nowhere, apart, writes, rest⟩ := writable
    obtain ⟨front, behind⟩ := Construct.not_trims writes
    obtain ⟨inside, spelled⟩ := construct.write_eq later.front
    have found : Text.indexOf? ['{', '{'] (text ++ (construct.write later.front ++ later.write)) =
        some text.length := by
      rw [spelled]
      exact Text.indexOf?_openBraces nowhere apart _
    have opened : Region.opening strict
        ((text ++ (construct.write later.front ++ later.write)).drop text.length) =
          .ok (construct.region later.front) := by
      rw [List.drop_left]
      exact Construct.opening_write writes later.write
    have solid : (construct.region later.front).shape ≠ .text := Region.shape_ne_text opened
    have left : (text ++ (construct.write later.front ++ later.write)).drop
        (text.length + (construct.region later.front).content.length) = later.write := by
      rw [← List.drop_drop, List.drop_left]
      exact List.drop_left
    have plain : (Region.tokens start before (some (construct.region later.front))
        ⟨.text, text⟩).map Token.toLexeme = textLexemes text :=
      Region.lexemes_text start begins front
    have lexed (start : Nat) := @ih rest start (some (construct.region later.front)) behind
    rw [write, Region.cut_of_ok found opened, left]
    refine ⟨(lexed 0).1, ?_⟩
    simp only [Region.emit_piece solid, List.take_left, List.map_append, plain,
      Construct.tokens_region writes, lexed, lexemes]

end TemplateLexer
