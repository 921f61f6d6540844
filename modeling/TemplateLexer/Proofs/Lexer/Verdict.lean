import TemplateLexer.Proofs.Lexer.Folding
import TemplateLexer.Proofs.Writer.RoundTrip

/-! Lexing a template with its line endings folded. It ends as lexing the template does; the same
lexemes are found, with their values folded, and faults are on the same line and column. -/

set_option autoImplicit false

namespace TemplateLexer

open Text (foldLineEndings foldedOffset Uncut Level)

namespace Text

variable {text front back other : List Char} {n : Nat}

/-- Carriage returns stand in front of line feeds only. -/
def Paired (text : List Char) : Prop :=
  text.IsChain (fun c d => c = '\r' → d = '\n') ∧ text.getLast? ≠ some '\r'

instance (text : List Char) : Decidable (Paired text) :=
  inferInstanceAs (Decidable (_ ∧ _))

namespace Paired

variable {c : Char}

theorem tail (paired : Paired (c :: text)) : Paired text := by
  cases text with
  | nil => exact ⟨.nil, by simp⟩
  | cons d text => exact ⟨(List.isChain_cons_cons.mp paired.1).2, by simpa using paired.2⟩

theorem head? (paired : Paired ('\r' :: text)) : text.head? = some '\n' := by
  cases text with
  | nil => exact absurd rfl paired.2
  | cons d text =>
    rw [(List.isChain_cons_cons.mp paired.1).1 rfl]
    rfl

theorem cons (paired : Paired text) (first : c = '\r' → text.head? = some '\n') :
    Paired (c :: text) := by
  cases text with
  | nil =>
    refine ⟨.singleton c, ?_⟩
    rintro ⟨⟩
    exact nomatch first rfl
  | cons d text =>
    exact ⟨.cons_cons (fun same => Option.some.inj (first same)) paired.1, by simpa using paired.2⟩

theorem of_append (paired : Paired (front ++ back)) (uncut : Uncut front back) : Paired front := by
  induction front with
  | nil => exact ⟨.nil, by simp⟩
  | cons c front ih =>
    refine (ih paired.tail uncut.tail).cons ?_
    rintro rfl
    have next : (front ++ back).head? = some '\n' := paired.head?
    cases front with
    | nil => exact absurd next (uncut rfl)
    | cons d front => exact next

end Paired

theorem count_foldLineEndings (paired : Paired text) :
    (foldLineEndings text).count '\n' = text.count '\n' := by
  fun_induction foldLineEndings text with
  | case1 => rfl
  | case2 rest ih => simp [ih paired.tail.tail]
  | case3 rest alone ih => exact absurd paired.head? (head?_ne_of_alone alone)
  | case4 c rest _ _ ih => simp [List.count_cons, ih paired.tail]

theorem lastLine_append_congr (front first : List Char) (fronts : lastLine front = lastLine first)
    (backs : lastLine back = lastLine other) (count : back.count '\n' = other.count '\n') :
    lastLine (front ++ back) = lastLine (first ++ other) := by
  have same : '\n' ∈ back ↔ '\n' ∈ other := by
    rw [← List.count_pos_iff, ← List.count_pos_iff, count]
  by_cases feed : '\n' ∈ back
  · rw [lastLine_append_of_mem feed, lastLine_append_of_mem (same.mp feed), backs]
  · have level : '\n' ∉ other := fun member => feed (same.mpr member)
    rw [lastLine_append_of_notMem feed, lastLine_append_of_notMem level, fronts]
    have whole : lastLine back = back := lastLine_eq_self feed
    have wholeOther : lastLine other = other := lastLine_eq_self level
    rw [← whole, backs, wholeOther]

theorem lastLine_foldLineEndings (paired : Paired text) :
    lastLine (foldLineEndings text) = lastLine text := by
  fun_induction foldLineEndings text with
  | case1 => rfl
  | case2 rest ih =>
    exact lastLine_append_congr ['\n'] ['\r', '\n'] rfl (ih paired.tail.tail)
      (count_foldLineEndings paired.tail.tail)
  | case3 rest alone ih => exact absurd paired.head? (head?_ne_of_alone alone)
  | case4 c rest _ _ ih =>
    exact lastLine_append_congr [c] [c] rfl (ih paired.tail) (count_foldLineEndings paired.tail)

end Text

/-- With carriage returns in front of line feeds only, a place stays on its line and column. -/
theorem LineIndex.position_foldedOffset {text : List Char} {n : Nat} (paired : Text.Paired text)
    (inside : n ≤ text.length) (uncut : Uncut (text.take n) (text.drop n)) :
    ((ofText (foldLineEndings text)).position (foldedOffset text n)).line =
        ((ofText text).position n).line ∧
      ((ofText (foldLineEndings text)).position (foldedOffset text n)).column =
        ((ofText text).position n).column := by
  rw [← List.take_append_drop n text] at paired
  have before := paired.of_append uncut
  have length : (text.take n).length = n := by rw [List.length_take, Nat.min_eq_left inside]
  rw [position_ofText, position_ofText, Text.take_foldedOffset uncut,
    Text.count_foldLineEndings before, Text.lastLine_foldLineEndings before, length, foldedOffset]
  have short := Text.length_lastLine_le (text.take n)
  have shorter := Text.length_lastLine_le (foldLineEndings (text.take n))
  rw [Text.lastLine_foldLineEndings before] at shorter
  simp only [true_and]
  omega

namespace Region

variable {strict : Bool} {text : List Char} {region : Region} {n : Nat}

section Code

open Lexer (opensWithDash endsWithDash)

variable {code : List Char}

theorem opensWithDash_foldLineEndings (code : List Char) :
    opensWithDash (foldLineEndings code) = opensWithDash code := by
  rw [opensWithDash, Text.head?_foldLineEndings]
  exact decide_eq_decide.mpr (Text.map_foldReturn_eq_iff (by decide) (by decide))

theorem endsWithDash_foldLineEndings (code : List Char) :
    endsWithDash (foldLineEndings code) = endsWithDash code := by
  rw [endsWithDash, Text.getLast?_foldLineEndings]
  exact decide_eq_decide.mpr (Text.map_foldReturn_eq_iff (by decide) (by decide))

theorem afterMark_foldLineEndings (first : Bool) (code : List Char) :
    afterMark first (foldLineEndings code) = foldLineEndings (afterMark first code) := by
  unfold afterMark
  rw [opensWithDash_foldLineEndings]
  split
  · next marked =>
    simp only [Bool.and_eq_true, opensWithDash, decide_eq_true_eq] at marked
    obtain ⟨rest, rfl⟩ := List.head?_eq_some_iff.mp marked.2
    rw [Text.foldLineEndings_cons (by decide), List.tail_cons, List.tail_cons]
  · rfl

theorem unmarked_foldLineEndings (first last : Bool) (code : List Char) :
    unmarked first last (foldLineEndings code) = foldLineEndings (unmarked first last code) := by
  unfold unmarked
  rw [afterMark_foldLineEndings, endsWithDash_foldLineEndings]
  split
  · next marked =>
    simp only [Bool.and_eq_true, endsWithDash, decide_eq_true_eq] at marked
    obtain ⟨front, whole⟩ := List.getLast?_eq_some_iff.mp marked.2
    have dash : Level ['-'] := by decide
    rw [whole, Text.foldLineEndings_append (Text.uncut_of_head (by decide)),
      Text.foldLineEndings_level dash, List.dropLast_concat, List.dropLast_concat]
  · rfl

end Code

/-- What a construct was read as, by its shape. -/
theorem read_of_opening (opened : opening strict text = .ok region) :
    match region.shape with
    | .text => False
    | .raw block => RawBlock.read text = .found block
    | .comment closed => ['{', '{', '#'] <+: text ∧ (closed = true →
      ∃ n, Text.indexOf? ['#', '}', '}'] (text.drop 3) = some n ∧ region.content.length = n + 6)
    | .tag cuts => Tag.cuts? text = some cuts ∧ region.content = text.take (cuts.getLastD 0) := by
  rcases opening_eq_ok_iff.mp opened with
    ⟨block, read, rfl⟩ | ⟨n, _, hash, closed, rfl⟩ | ⟨_, hash, _, _, rfl⟩ | ⟨cuts, _, _, ended, rfl⟩
  · exact read
  · have length : (text.take (n + 6)).length = n + 6 := by
      rw [List.length_take, Nat.min_eq_left (length_le_of_closeComment closed)]
    exact ⟨Text.startsWith_iff_isPrefix.mp hash, fun _ => ⟨n, closed, length⟩⟩
  · exact ⟨Text.startsWith_iff_isPrefix.mp hash, by simp⟩
  · exact ⟨ended, rfl⟩

/-- A text, or a construct that ends; a tag ends in adjacent braces. -/
def Sound (region : Region) : Prop :=
  region.shape = .text ∨ ['{', '{'] <+: region.content ∧
    (∃ strict, opening strict region.content = .ok region) ∧
    ∀ cuts, region.shape = .tag cuts → ['}', '}'] <:+ region.content

namespace Sound

variable {content : List Char}

theorem exists_opening (sound : region.Sound) (other : region.shape ≠ .text) :
    ∃ strict, opening strict region.content = .ok region :=
  (sound.resolve_left other).2.1

theorem cuts_eq {cuts : List Nat} (sound : Sound ⟨.tag cuts, content⟩) :
    ['{', '{'] <+: content ∧ Tag.cuts? content = some cuts ∧
      ['}', '}'] <:+ content.take (cuts.getLastD 0) := by
  obtain ⟨braces, ⟨strict, opened⟩, closed⟩ := sound.resolve_left (by simp)
  obtain ⟨ended, whole⟩ := read_of_opening opened
  exact ⟨braces, ended, whole ▸ closed cuts rfl⟩

theorem read_eq {block : RawBlock} (sound : Sound ⟨.raw block, content⟩) :
    RawBlock.read content = .found block := by
  obtain ⟨strict, opened⟩ := sound.exists_opening (by simp)
  exact read_of_opening opened

theorem hash {closed : Bool} (sound : Sound ⟨.comment closed, content⟩) :
    ['{', '{', '#'] <+: content := by
  obtain ⟨strict, opened⟩ := sound.exists_opening (by simp)
  exact (read_of_opening opened).1

theorem closing (sound : Sound ⟨.comment true, content⟩) :
    ∃ n, Text.indexOf? ['#', '}', '}'] (content.drop 3) = some n ∧ content.length = n + 6 := by
  obtain ⟨strict, opened⟩ := sound.exists_opening (by simp)
  exact (read_of_opening opened).2 rfl

theorem segments_folded (sound : region.Sound) :
    region.folded.segments = region.segments.map (Tag.Segment.folded region.content) := by
  obtain ⟨shape, content⟩ := region
  cases shape with
  | text | raw | comment => rfl
  | tag cuts =>
    obtain ⟨braces, ended, closed⟩ := sound.cuts_eq
    exact Tag.segments_foldLineEndings (Tag.firm_of_cuts? braces ended closed)

theorem trimsBefore_folded (sound : region.Sound) :
    region.folded.trimsBefore = region.trimsBefore := by
  simp only [trimsBefore, sound.segments_folded, List.head?_map, Option.any_map,
    Tag.Segment.folded, opensWithDash_foldLineEndings]

theorem trimsAfter_folded (sound : region.Sound) :
    region.folded.trimsAfter = region.trimsAfter := by
  simp only [trimsAfter, sound.segments_folded, List.getLast?_map, Option.any_map,
    Tag.Segment.folded, List.length_map, afterMark_foldLineEndings, endsWithDash_foldLineEndings]

end Sound

end Region

def Lexeme.folded (lexeme : Lexeme) : Lexeme :=
  { lexeme with value := foldLineEndings lexeme.value }

namespace Region.Sound

variable {region : Region} {before after : Option Region}

theorem values_folded (sound : region.Sound) :
    region.folded.values = region.values.map foldLineEndings := by
  simp only [values, sound.segments_folded, List.mapIdx_eq_zipIdx_map, List.zipIdx_map, List.map_map,
    List.length_map]
  apply List.map_congr_left
  rintro ⟨segment, i⟩ _
  simp only [Function.comp_apply, Prod.map_apply, Tag.Segment.folded, id_eq,
    unmarked_foldLineEndings, Text.trim_foldLineEndings]

theorem any_trimsAfter_folded (sound : ∀ other ∈ before, other.Sound) :
    (before.map folded).any trimsAfter = before.any trimsAfter := by
  cases before with
  | none => rfl
  | some other => exact (sound other rfl).trimsAfter_folded

theorem any_trimsBefore_folded (sound : ∀ other ∈ after, other.Sound) :
    (after.map folded).any trimsBefore = after.any trimsBefore := by
  cases after with
  | none => rfl
  | some other => exact (sound other rfl).trimsBefore_folded

theorem lexemes_text (soundBefore : ∀ other ∈ before, other.Sound)
    (soundAfter : ∀ other ∈ after, other.Sound) (start place : Nat) (content : List Char) :
    (tokens place (before.map folded) (after.map folded) ⟨.text, foldLineEndings content⟩).map
        Token.toLexeme =
      (tokens start before after ⟨.text, content⟩).map fun token => token.toLexeme.folded := by
  simp only [tokens, any_trimsAfter_folded soundBefore, any_trimsBefore_folded soundAfter,
    Text.trimLeft_foldLineEndings, ← apply_ite foldLineEndings, Text.trimRight_foldLineEndings,
    Text.foldLineEndings_isEmpty]
  -- Whether text is trimmed on either side, and whether something is left of it.
  split <;> split <;> split <;> rfl

theorem slice_comment_folded {content : List Char} (sound : Sound ⟨.comment true, content⟩) :
    Text.slice (foldLineEndings content) 3 ((foldLineEndings content).length - 3) =
      foldLineEndings (Text.slice content 3 (content.length - 3)) := by
  obtain ⟨n, closed, length⟩ := sound.closing
  have opens : ['{', '{', '#'] <+: content.drop 0 := sound.hash
  have start : foldedOffset content 3 = 3 := level_openComment.foldedOffset_behind opens
  obtain ⟨_, closing, _⟩ := Text.indexOf?_eq_some_iff_isPrefix.mp closed
  rw [List.drop_drop] at closing
  have inner : content.length - 3 = 3 + n := by omega
  have whole : content.length = 3 + n + 3 := by omega
  have stop : (foldLineEndings content).length - 3 = foldedOffset content (3 + n) := by
    have last : foldedOffset content (3 + n + 3) = foldedOffset content (3 + n) + 3 :=
      level_closeComment.foldedOffset_behind closing
    rw [Text.foldedOffset_of_length_le (Nat.le_of_eq whole)] at last
    omega
  have sliced : Text.slice (foldLineEndings content) (foldedOffset content 3)
      (foldedOffset content (3 + n)) = foldLineEndings (Text.slice content 3 (3 + n)) :=
    Text.slice_foldedOffset (level_openComment.uncut_behind (by simp) opens)
      (level_closeComment.uncut_at (by simp) closing)
  rw [start] at sliced
  rw [stop, inner, sliced]

theorem lexemes_folded (sound : region.Sound) (soundBefore : ∀ other ∈ before, other.Sound)
    (soundAfter : ∀ other ∈ after, other.Sound) (start place : Nat) :
    (region.folded.tokens place (before.map folded) (after.map folded)).map Token.toLexeme =
      (region.tokens start before after).map fun token => token.toLexeme.folded := by
  have values := sound.values_folded
  obtain ⟨shape, content⟩ := region
  cases shape with
  | text => exact lexemes_text soundBefore soundAfter start place content
  | raw block =>
    have uncut := RawBlock.uncut_content sound.read_eq
    simp only [tokens, folded, Shape.folded, RawBlock.folded,
      Text.slice_foldedOffset uncut.1 uncut.2]
    rfl
  | comment closed =>
    cases closed with
    | true =>
      simp only [tokens, folded, Shape.folded, slice_comment_folded sound]
      rfl
    | false =>
      have body : (foldLineEndings content).drop 3 = foldLineEndings (content.drop 3) :=
        Text.drop_foldLineEndings level_openComment (Text.startsWith_iff_isPrefix.mpr sound.hash)
      simp only [tokens, folded, Shape.folded, body]
      rfl
  | tag cuts =>
    have nonempty : Region.segments ⟨.tag cuts, content⟩ ≠ [] := Tag.segments_ne_nil sound.cuts_eq.2.1
    obtain ⟨code, filters, split⟩ := List.exists_cons_of_ne_nil
      (l := Region.values ⟨.tag cuts, content⟩) (by simpa [Region.values] using nonempty)
    rw [split] at values
    have lexemes := congrArg (List.map Lexeme.folded) (lexemes_tag rfl split start before after)
    rw [List.map_map] at lexemes
    rw [lexemes_tag rfl values]
    refine Eq.trans ?_ lexemes.symm
    simp [Construct.lexemes, Lexeme.folded]

theorem emit_folded {regions : List Region} (sound : ∀ region ∈ regions, region.Sound)
    (soundBefore : ∀ other ∈ before, other.Sound) (start place : Nat) :
    (emit place (before.map folded) (regions.map folded)).map Token.toLexeme =
      (emit start before regions).map fun token => token.toLexeme.folded := by
  induction regions generalizing before start place with
  | nil => rfl
  | cons region later ih =>
    have here := sound region List.mem_cons_self
    have behind : ∀ other ∈ later.head?, other.Sound := fun other member =>
      sound other (List.mem_cons_of_mem region (List.mem_of_head? member))
    have rest := fun start place => @ih (some region)
      (fun other member => sound other (List.mem_cons_of_mem region member))
      (fun other member => by cases member; exact here) start place
    simp only [Option.map_some] at rest
    rw [List.map_cons, emit, emit, List.map_append, List.map_append, rest, List.head?_map,
      here.lexemes_folded soundBefore behind]

end Region.Sound

namespace Region

variable {strict : Bool} {text : List Char}

theorem sound_of_mem_cut (closed : ∀ region ∈ (cut strict text).1, ∀ cuts,
    region.shape = .tag cuts → ['}', '}'] <:+ region.content) :
    ∀ region ∈ (cut strict text).1, region.Sound := by
  intro region member
  rcases opening_of_mem_cut member with plain | ⟨rest, braces, opened⟩
  · exact .inl plain
  · have alone := opening_take braces opened (Nat.le_refl _)
    rw [take_length_content opened] at alone
    exact .inr ⟨braces_content braces opened, ⟨strict, alone⟩, closed region member⟩

end Region

/-- The outcomes of lexing a text and of lexing the folded text: both succeed, or both meet the same
fault at the same braces. -/
def SameVerdict (text : List Char) :
    Except Failure (List (Token Nat)) → Except Failure (List (Token Nat)) → Prop
  | .ok tokens, .ok folded =>
    ClosedByBraces text tokens →
      folded.map Token.toLexeme = tokens.map fun token => token.toLexeme.folded
  | .error failure, .error folded =>
    folded.fault = failure.fault ∧
      folded.offset = (foldLineEndings (text.take failure.offset)).length ∧
      (Text.Paired text →
        ((LineIndex.ofText (foldLineEndings text)).position folded.offset).line =
            ((LineIndex.ofText text).position failure.offset).line ∧
          ((LineIndex.ofText (foldLineEndings text)).position folded.offset).column =
            ((LineIndex.ofText text).position failure.offset).column)
  | _, _ => False

variable {strict : Bool} {text : List Char}

theorem tokenize_foldLineEndings_of_error {failure : Failure}
    (failed : tokenize strict text = .error failure) :
    tokenize strict (foldLineEndings text) =
      .error ⟨failure.fault, foldedOffset text failure.offset⟩ := by
  obtain ⟨met, offset⟩ := tokenize_eq_error_iff.mp failed
  rw [tokenize_eq_error_iff, Region.cut_foldLineEndings]
  refine ⟨met, ?_⟩
  rw [offset, ← Region.sum_length_folded, List.map_map]
  rfl

theorem tokenize_foldLineEndings_of_ok {tokens : List (Token Nat)}
    (lexed : tokenize strict text = .ok tokens) :
    ∃ folded, tokenize strict (foldLineEndings text) = .ok folded ∧
      (ClosedByBraces text tokens →
        folded.map Token.toLexeme = tokens.map fun token => token.toLexeme.folded) := by
  obtain ⟨whole, rfl⟩ := tokenize_eq_ok_iff.mp lexed
  refine ⟨_, tokenize_eq_ok_iff.mpr ⟨?_, rfl⟩, fun closed => ?_⟩
  · rw [Region.cut_foldLineEndings]
    exact whole
  · have braces := Region.closed_of_tokens (fun region => Region.opening_of_mem_cut)
      (by rw [List.drop_zero, Region.flatten_cut whole]) closed
    have alone : ∀ region ∈ (none : Option Region), region.Sound := by simp
    rw [Region.cut_foldLineEndings]
    exact Region.Sound.emit_folded (Region.sound_of_mem_cut braces) alone 0 0

theorem sameVerdict_tokenize (strict : Bool) (text : List Char) :
    SameVerdict text (tokenize strict text) (tokenize strict (foldLineEndings text)) := by
  cases outcome : tokenize strict text with
  | ok tokens =>
    obtain ⟨folded, lexed, lexemes⟩ := tokenize_foldLineEndings_of_ok outcome
    rw [lexed]
    exact lexemes
  | error failure =>
    obtain ⟨_, _, stop⟩ := exists_stop_of_error outcome
    have inside : failure.offset ≤ text.length := by
      have room := stop.braces.length_le
      simp only [List.length_drop, List.length_cons, List.length_nil] at room
      omega
    rw [tokenize_foldLineEndings_of_error outcome]
    exact ⟨rfl, rfl, fun paired => LineIndex.position_foldedOffset paired inside
      (level_openBraces.uncut_at (by simp) stop.braces)⟩

end TemplateLexer
