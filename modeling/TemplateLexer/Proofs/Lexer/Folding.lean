import TemplateLexer.Proofs.Lexer.Stop
import TemplateLexer.Proofs.Tag.Folding

/-! Templates with their line endings folded. The folded text is cut into the folded regions of the
text, so that lexing either ends alike. -/

set_option autoImplicit false

namespace TemplateLexer

open Text (foldLineEndings foldReturn foldedOffset Uncut Level)

theorem level_openBraces : Level ['{', '{'] := by
  decide

theorem level_closeBraces : Level ['}', '}'] := by
  decide

theorem level_openComment : Level ['{', '{', '#'] := by
  decide

theorem level_closeComment : Level ['#', '}', '}'] := by
  decide

section Marker

variable {name text rest : List Char} {length : Nat} {c : Char}

theorem marker_eq_append (name lead tail : List Char) :
    marker name lead tail = ['{', '{'] ++ (lead ++ (name ++ tail)) ++ ['}', '}'] := by
  simp [marker]

theorem foldLineEndings_marker (valid : MarkerName name) (level : Level name)
    (lead tail : List Char) :
    foldLineEndings (marker name lead tail) =
      marker name (foldLineEndings lead) (foldLineEndings tail) := by
  have named : Uncut lead (name ++ tail) :=
    level.uncut_of_isPrefix valid.nonempty (List.prefix_append name tail)
  rw [marker_eq_append, marker_eq_append,
    Text.foldLineEndings_append (Text.uncut_of_head (by decide)),
    Text.foldLineEndings_append level_openBraces.uncut_left, Text.foldLineEndings_append named,
    Text.foldLineEndings_append level.uncut_left, Text.foldLineEndings_level level]
  rfl

namespace MarkedBy

theorem braces (marked : MarkedBy name text length) : ['{', '{'] <+: text := by
  obtain ⟨lead, tail, rest, _, _, rfl, _⟩ := marked
  exact List.prefix_append ['{', '{'] _

theorem exists_closing (marked : MarkedBy name text length) :
    ∃ n, length = n + ['}', '}'].length ∧ ['}', '}'] <+: text.drop n := by
  obtain ⟨lead, tail, rest, _, _, rfl, rfl⟩ := marked
  refine ⟨(['{', '{'] ++ (lead ++ (name ++ tail))).length, ?_, ?_⟩
  · rw [marker_eq_append, List.length_append]
  · rw [marker_eq_append, List.append_assoc, List.drop_left]
    exact List.prefix_append _ rest

theorem uncut (marked : MarkedBy name text length) :
    Uncut (text.take length) (text.drop length) := by
  obtain ⟨n, rfl, closing⟩ := marked.exists_closing
  exact level_closeBraces.uncut_behind (by simp) closing

theorem folded (valid : MarkerName name) (level : Level name) (marked : MarkedBy name text length) :
    MarkedBy name (foldLineEndings text) (foldedOffset text length) := by
  have uncut := marked.uncut
  obtain ⟨lead, tail, rest, blankLead, blankTail, rfl, rfl⟩ := marked
  rw [List.take_left, List.drop_left] at uncut
  refine ⟨foldLineEndings lead, foldLineEndings tail, foldLineEndings rest,
    Text.blank_foldLineEndings blankLead, Text.blank_foldLineEndings blankTail, ?_, ?_⟩
  · rw [Text.foldLineEndings_append uncut, foldLineEndings_marker valid level]
  · rw [Text.foldedOffset_append, foldLineEndings_marker valid level]

end MarkedBy

theorem isSome_markerLength? (name text : List Char) :
    (markerLength? name text).isSome =
      (Text.startsWith ['{', '{'] text && Text.startsWith name (Text.trimLeft (text.drop 2)) &&
        Text.startsWith ['}', '}']
          (Text.trimLeft ((Text.trimLeft (text.drop 2)).drop name.length))) := by
  unfold markerLength? Text.trimLeft
  dsimp only
  split
  · split
    · split <;> simp_all
    · simp_all
  · simp_all

theorem markerLength?_foldLineEndings (valid : MarkerName name) (level : Level name)
    (text : List Char) :
    markerLength? name (foldLineEndings text) =
      (markerLength? name text).map (foldedOffset text) := by
  cases found : markerLength? name text with
  | some length =>
    exact ((markedBy_of_markerLength? found).folded valid level).markerLength? valid
  | none =>
    -- What a marker consists of stands in the folded text only if it stands in the text.
    rw [Option.map_none, ← Option.not_isSome_iff_eq_none, isSome_markerLength?]
    rw [← Option.not_isSome_iff_eq_none, isSome_markerLength?] at found
    intro marked
    apply found
    simp only [Bool.and_eq_true] at marked ⊢
    obtain ⟨⟨opens, named⟩, closes⟩ := marked
    rw [Text.startsWith_foldLineEndings level_openBraces] at opens
    have inside : (foldLineEndings text).drop 2 = foldLineEndings (text.drop 2) :=
      Text.drop_foldLineEndings level_openBraces opens
    rw [inside, Text.trimLeft_foldLineEndings] at named closes
    rw [Text.startsWith_foldLineEndings level] at named
    rw [Text.drop_foldLineEndings level named, Text.trimLeft_foldLineEndings,
      Text.startsWith_foldLineEndings level_closeBraces] at closes
    exact ⟨⟨opens, named⟩, closes⟩

theorem markerLength?_eq_none_of_ne (other : c ≠ '{') : markerLength? name (c :: rest) = none := by
  rw [Option.eq_none_iff_forall_ne_some]
  intro length found
  obtain ⟨lead, tail, back, _, _, whole, _⟩ := markedBy_of_markerLength? found
  exact other (List.cons.inj whole).1

end Marker

namespace RawBlock

def folded (text : List Char) (block : RawBlock) : RawBlock :=
  ⟨foldedOffset text block.contentStart, foldedOffset text block.contentStop,
    foldedOffset text block.stop⟩

theorem folded_take {text : List Char} {block : RawBlock} {n : Nat}
    (start : block.contentStart ≤ n) (contentStop : block.contentStop ≤ n) (stop : block.stop ≤ n) :
    block.folded (text.take n) = block.folded text := by
  simp only [folded, Text.foldedOffset_take, start, contentStop, stop]

def Reading.folded (text : List Char) : Reading → Reading
  | .absent => .absent
  | .unclosed => .unclosed
  | .found block => .found (block.folded text)

/-- No line ending reaches into the content of a block, or out of it. -/
theorem uncut_content {text : List Char} {block : RawBlock} (found : read text = .found block) :
    Uncut (text.take block.contentStart) (text.drop block.contentStart) ∧
      Uncut (text.take block.contentStop) (text.drop block.contentStop) := by
  obtain ⟨opener, content, closer, opens, closes, rfl⟩ := read_eq_found_iff.mp found
  obtain ⟨_, here, _⟩ := Text.first?_eq_some_iff.mp closes
  have braces := (markedBy_of_markerLength? here).braces
  rw [List.drop_drop] at braces
  exact ⟨(openerLength?_eq_some_iff.mp opens).uncut, level_openBraces.uncut_at (by simp) braces⟩

theorem first?_closer_foldLineEndings (text : List Char) :
    Text.first? closerLength? (foldLineEndings text) =
      (Text.first? closerLength? text).map fun (content, closer) =>
        (foldedOffset text content, foldedOffset (text.drop content) closer) := by
  refine Text.first?_foldLineEndings (fun c rest feed => markerLength?_eq_none_of_ne ?_)
    (markerLength?_foldLineEndings markerName_slash_raw (by decide))
  rintro rfl
  exact absurd feed (by decide)

theorem read_foldLineEndings (text : List Char) :
    read (foldLineEndings text) = (read text).folded text := by
  have opener : openerLength? (foldLineEndings text) =
      (openerLength? text).map (foldedOffset text) :=
    markerLength?_foldLineEndings markerName_raw (by decide) text
  cases opens : openerLength? text with
  | none => simp only [read, opener, opens, Option.map_none, Reading.folded]
  | some length =>
    have behind := (openerLength?_eq_some_iff.mp opens).uncut
    have closer := first?_closer_foldLineEndings (text.drop length)
    rw [← Text.drop_foldedOffset behind] at closer
    cases closes : Text.first? closerLength? (text.drop length) with
    | none => simp only [read, opener, opens, closer, closes, Option.map_some, Option.map_none,
        Reading.folded]
    | some found =>
      obtain ⟨content, closing⟩ := found
      obtain ⟨_, here, _⟩ := Text.first?_eq_some_iff.mp closes
      have inner : Uncut ((text.drop length).take content) ((text.drop length).drop content) :=
        level_openBraces.uncut_at (by simp) (markedBy_of_markerLength? here).braces
      simp only [read, opener, opens, closer, closes, Option.map_some, Reading.folded, folded,
        Nat.add_assoc, Text.foldedOffset_add behind, Text.foldedOffset_add inner]

theorem read_foldLineEndings_of_absent {text : List Char} (absent : read text = .absent) :
    read (foldLineEndings text) = .absent := by
  rw [read_foldLineEndings, absent]
  rfl

theorem read_foldLineEndings_of_unclosed {text : List Char} (unclosed : read text = .unclosed) :
    read (foldLineEndings text) = .unclosed := by
  rw [read_foldLineEndings, unclosed]
  rfl

theorem read_foldLineEndings_of_found {text : List Char} {block : RawBlock}
    (found : read text = .found block) :
    read (foldLineEndings text) = .found (block.folded text) := by
  rw [read_foldLineEndings, found]
  rfl

end RawBlock

def Shape.folded (content : List Char) : Shape → Shape
  | .text => .text
  | .raw block => .raw (block.folded content)
  | .comment closed => .comment closed
  | .tag cuts => .tag (cuts.map (foldedOffset content))

namespace Region

variable {strict : Bool} {text : List Char} {region : Region} {n : Nat}

def folded (region : Region) : Region :=
  ⟨region.shape.folded region.content, foldLineEndings region.content⟩

/-- Nothing after a construct belongs to a line ending that begins in it. -/
theorem uncut_content (opened : opening strict text = .ok region) (braces : ['{', '{'] <+: text) :
    Uncut (text.take region.content.length) (text.drop region.content.length) := by
  rcases opening_eq_ok_iff.mp opened with
    ⟨block, read, rfl⟩ | ⟨length, _, hash, closed, rfl⟩ | ⟨_, _, _, _, rfl⟩ |
    ⟨cuts, absent, hash, ended, rfl⟩
  · have bounds := RawBlock.bounds_of_read read
    obtain ⟨opener, content, closer, opens, closes, rfl⟩ := RawBlock.read_eq_found_iff.mp read
    obtain ⟨_, here, _⟩ := Text.first?_eq_some_iff.mp closes
    obtain ⟨n, rfl, closing⟩ := (markedBy_of_markerLength? here).exists_closing
    rw [List.drop_drop, List.drop_drop, ← Nat.add_assoc] at closing
    rw [List.length_take, Nat.min_eq_left bounds.2.2, ← Nat.add_assoc]
    exact level_closeBraces.uncut_behind (by simp) closing
  · obtain ⟨_, closing, _⟩ := Text.indexOf?_eq_some_iff_isPrefix.mp closed
    rw [List.drop_drop] at closing
    have stop : length + 6 = 3 + length + ['#', '}', '}'].length := by
      simp only [List.length_cons, List.length_nil]
      omega
    rw [List.length_take, Nat.min_eq_left (length_le_of_closeComment closed), stop]
    exact level_closeComment.uncut_behind (by simp) closing
  · rw [List.drop_length]
    exact Text.uncut_of_head (by simp)
  · obtain ⟨n, stop, brace⟩ := Tag.Scan.brace_of_finish? ended rfl
    obtain ⟨inside, rfl⟩ := braces
    have within : cuts.getLastD 0 ≤ (['{', '{'] ++ inside).length := (Tag.bounds_of_cuts? ended).1
    have level : Level ['}'] := by decide
    rw [List.length_take, Nat.min_eq_left within, stop]
    exact level.uncut_behind (by simp) brace

theorem take_length_content (opened : opening strict text = .ok region) :
    text.take region.content.length = region.content := by
  obtain ⟨back, rfl⟩ := content_isPrefix opened
  exact List.take_left

theorem closeComment_foldLineEndings (hash : Text.startsWith ['{', '{', '#'] text = true) :
    Text.indexOf? ['#', '}', '}'] ((foldLineEndings text).drop 3) =
      (Text.indexOf? ['#', '}', '}'] (text.drop 3)).map (foldedOffset (text.drop 3)) := by
  have inside : (foldLineEndings text).drop 3 = foldLineEndings (text.drop 3) :=
    Text.drop_foldLineEndings level_openComment hash
  rw [inside, Text.indexOf?_foldLineEndings level_closeComment (by simp) (text.drop 3)]

theorem foldedOffset_closeComment (hash : Text.startsWith ['{', '{', '#'] text = true)
    (closed : Text.indexOf? ['#', '}', '}'] (text.drop 3) = some n) :
    foldedOffset text (n + 6) = foldedOffset (text.drop 3) n + 6 := by
  obtain ⟨_, closing, _⟩ := Text.indexOf?_eq_some_iff_isPrefix.mp closed
  have starts : ['{', '{', '#'] <+: text.drop 0 := Text.startsWith_iff_isPrefix.mp hash
  have opening : foldedOffset text 3 = 3 := level_openComment.foldedOffset_behind starts
  have body : foldedOffset text (3 + n) = foldedOffset text 3 + foldedOffset (text.drop 3) n :=
    Text.foldedOffset_add (level_openComment.uncut_behind (by simp) starts) n
  have stop : foldedOffset text (3 + n + 3) = foldedOffset text (3 + n) + 3 := by
    rw [List.drop_drop] at closing
    exact level_closeComment.foldedOffset_behind closing
  rw [show n + 6 = 3 + n + 3 by omega, stop, body, opening]
  omega

theorem getLastD_map_foldedOffset (text : List Char) (cuts : List Nat) :
    (cuts.map (foldedOffset text)).getLastD 0 = foldedOffset text (cuts.getLastD 0) := by
  rcases List.eq_nil_or_concat cuts with rfl | ⟨front, last, rfl⟩
  · exact (Text.foldedOffset_zero text).symm
  · simp

theorem hash_foldLineEndings (text : List Char) :
    Text.startsWith ['{', '{', '#'] (foldLineEndings text) =
      Text.startsWith ['{', '{', '#'] text :=
  Text.startsWith_foldLineEndings level_openComment

theorem opening_foldLineEndings_of_error {fault : Fault} (braces : ['{', '{'] <+: text)
    (failed : opening strict text = .error fault) :
    opening strict (foldLineEndings text) = .error fault := by
  refine opening_eq_error_iff.mpr ?_
  rcases opening_eq_error_iff.mp failed with
    ⟨read, rfl⟩ | ⟨read, hash, unclosed, rfl, rfl⟩ | ⟨read, hash, unclosed, rfl⟩
  · exact .inl ⟨RawBlock.read_foldLineEndings_of_unclosed read, rfl⟩
  · refine .inr (.inl ⟨RawBlock.read_foldLineEndings_of_absent read,
      (hash_foldLineEndings text).trans hash, ?_, rfl, rfl⟩)
    rw [closeComment_foldLineEndings hash, unclosed, Option.map_none]
  · refine .inr (.inr ⟨RawBlock.read_foldLineEndings_of_absent read,
      (hash_foldLineEndings text).trans hash, ?_, rfl⟩)
    rw [Tag.cuts?_foldLineEndings braces, unclosed, Option.map_none]

theorem opening_foldLineEndings_of_ok (braces : ['{', '{'] <+: text)
    (opened : opening strict text = .ok region) :
    opening strict (foldLineEndings text) = .ok region.folded := by
  have content : (foldLineEndings text).take (foldedOffset text region.content.length) =
      foldLineEndings region.content := by
    rw [Text.take_foldedOffset (uncut_content opened braces), take_length_content opened]
  refine opening_eq_ok_iff.mpr ?_
  rcases opening_eq_ok_iff.mp opened with
    ⟨block, read, rfl⟩ | ⟨length, read, hash, closed, rfl⟩ | ⟨read, hash, unclosed, rfl, rfl⟩ |
    ⟨cuts, read, hash, ended, rfl⟩
  · have bounds := RawBlock.bounds_of_read read
    rw [List.length_take, Nat.min_eq_left bounds.2.2] at content
    have block : block.folded (text.take block.stop) = block.folded text :=
      RawBlock.folded_take (bounds.1.trans bounds.2.1) bounds.2.1 (Nat.le_refl _)
    refine .inl ⟨_, RawBlock.read_foldLineEndings_of_found read, ?_⟩
    simp only [folded, Shape.folded, block, ← content]
    rfl
  · refine .inr (.inl ⟨foldedOffset (text.drop 3) length,
      RawBlock.read_foldLineEndings_of_absent read, (hash_foldLineEndings text).trans hash, ?_, ?_⟩)
    · rw [closeComment_foldLineEndings hash, closed, Option.map_some]
    · rw [List.length_take, Nat.min_eq_left (length_le_of_closeComment closed),
        foldedOffset_closeComment hash closed] at content
      rw [content]
      rfl
  · refine .inr (.inr (.inl ⟨RawBlock.read_foldLineEndings_of_absent read,
      (hash_foldLineEndings text).trans hash, ?_, rfl, rfl⟩))
    rw [closeComment_foldLineEndings hash, unclosed, Option.map_none]
  · refine .inr (.inr (.inr ⟨cuts.map (foldedOffset text),
      RawBlock.read_foldLineEndings_of_absent read, (hash_foldLineEndings text).trans hash, ?_, ?_⟩))
    · rw [Tag.cuts?_foldLineEndings braces, ended, Option.map_some]
    · obtain ⟨inside, rfl⟩ := braces
      have bounds := Tag.bounds_of_cuts? ended
      have within : cuts.getLastD 0 ≤ (['{', '{'] ++ inside).length := bounds.1
      have same : cuts.map (foldedOffset ((['{', '{'] ++ inside).take (cuts.getLastD 0))) =
          cuts.map (foldedOffset (['{', '{'] ++ inside)) :=
        List.map_congr_left fun cut member => Text.foldedOffset_take (bounds.2 cut member)
      rw [List.length_take, Nat.min_eq_left within] at content
      rw [getLastD_map_foldedOffset, content, ← same]
      rfl

/-- The text in front of the braces at `n`, and the text from there on, are folded apart. -/
theorem foldLineEndings_at (found : Text.indexOf? ['{', '{'] text = some n) :
    Text.indexOf? ['{', '{'] (foldLineEndings text) = some (foldedOffset text n) ∧
      (foldLineEndings text).take (foldedOffset text n) = foldLineEndings (text.take n) ∧
      (foldLineEndings text).drop (foldedOffset text n) = foldLineEndings (text.drop n) := by
  have braces := (Text.indexOf?_eq_some_iff_isPrefix.mp found).2.1
  have uncut := level_openBraces.uncut_at (by simp) braces
  refine ⟨?_, Text.take_foldedOffset uncut, Text.drop_foldedOffset uncut⟩
  rw [Text.indexOf?_foldLineEndings level_openBraces (by simp), found, Option.map_some]

theorem cut_foldLineEndings (strict : Bool) (text : List Char) :
    cut strict (foldLineEndings text) = ((cut strict text).1.map folded, (cut strict text).2) := by
  fun_induction cut strict text with
  | case1 text nowhere =>
    have nowhere : Text.indexOf? ['{', '{'] (foldLineEndings text) = none := by
      rw [Text.indexOf?_foldLineEndings level_openBraces (by simp), nowhere, Option.map_none]
    rw [cut_of_none nowhere, Text.foldLineEndings_isEmpty]
    split <;> rfl
  | case2 text n found fault failed =>
    have braces := (Text.indexOf?_eq_some_iff_isPrefix.mp found).2.1
    obtain ⟨place, before, behind⟩ := foldLineEndings_at found
    have again := opening_foldLineEndings_of_error braces failed
    rw [← behind] at again
    rw [cut_of_error place again, before]
    rfl
  | case3 text n found region opened later fault rest ih =>
    rw [rest] at ih
    have braces := (Text.indexOf?_eq_some_iff_isPrefix.mp found).2.1
    obtain ⟨place, before, behind⟩ := foldLineEndings_at found
    have again := opening_foldLineEndings_of_ok braces opened
    rw [← behind] at again
    have onward : (foldLineEndings text).drop (foldedOffset text n + region.folded.content.length) =
        foldLineEndings (text.drop (n + region.content.length)) := by
      have length : region.folded.content.length =
          foldedOffset (text.drop n) region.content.length := by
        rw [foldedOffset, take_length_content opened, folded]
      rw [length, ← List.drop_drop, behind, Text.drop_foldedOffset (uncut_content opened braces),
        List.drop_drop]
    rw [cut_of_ok place again, onward, ih, before]
    rfl

theorem sum_length_folded (strict : Bool) (text : List Char) :
    ((cut strict text).1.map fun region => (foldLineEndings region.content).length).sum =
      foldedOffset text ((cut strict text).1.map fun region => region.content.length).sum := by
  fun_induction cut strict text with
  | case1 text nowhere =>
    cases text with
    | nil => rfl
    | cons c rest => simp [Text.foldedOffset_of_length_le]
  | case2 text n found fault failed =>
    have inside := (Text.indexOf?_eq_some_iff.mp found).1
    simp [foldedOffset, inside]
  | case3 text n found region opened later fault rest ih =>
    simp only [rest] at ih
    obtain ⟨inside, braces, _⟩ := Text.indexOf?_eq_some_iff_isPrefix.mp found
    have before := level_openBraces.uncut_at (by simp) braces
    have front : (text.take n).length = n := by rw [List.length_take, Nat.min_eq_left inside]
    have content : (foldLineEndings region.content).length =
        foldedOffset (text.drop n) region.content.length := by
      rw [foldedOffset, take_length_content opened]
    simp only [List.map_cons, List.sum_cons, ih, front, content]
    rw [Text.foldedOffset_add before, Text.foldedOffset_add (uncut_content opened braces),
      List.drop_drop]
    rfl

end Region

end TemplateLexer
