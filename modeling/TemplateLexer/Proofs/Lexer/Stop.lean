import TemplateLexer.Proofs.Lexer.Append

/-! Where the lexer stops at a fault. What stands in front of the braces at fault is lexed as if
nothing came behind it, and nothing has been done to it on account of the construct at fault. -/

set_option autoImplicit false

namespace TemplateLexer

namespace Region

variable {strict : Bool} {text : List Char} {region : Region} {fault : Fault} {n : Nat}

theorem opening_eq_error_iff : opening strict text = .error fault ↔
    (RawBlock.read text = .unclosed ∧ fault = .unclosedRawBlock) ∨
    (RawBlock.read text = .absent ∧ Text.startsWith ['{', '{', '#'] text = true ∧
      Text.indexOf? ['#', '}', '}'] (text.drop 3) = none ∧ strict = true ∧
      fault = .unterminatedComment) ∨
    (RawBlock.read text = .absent ∧ Text.startsWith ['{', '{', '#'] text = false ∧
      Tag.cuts? text = none ∧ fault = .unclosedTag) := by
  -- The cases follow the order in which the lexer tries the constructs.
  unfold opening
  cases RawBlock.read text with
  | found block => simp
  | unclosed => simpa using eq_comm
  | absent =>
    cases Text.startsWith ['{', '{', '#'] text with
    | true =>
      cases Text.indexOf? ['#', '}', '}'] (text.drop 3) with
      | some length => simp
      | none =>
        cases strict with
        | true => simpa using eq_comm
        | false => simp
    | false =>
      cases Tag.cuts? text with
      | some cuts => simp
      | none => simpa using eq_comm

theorem braces_content (braces : ['{', '{'] <+: text) (opened : opening strict text = .ok region) :
    ['{', '{'] <+: region.content := by
  have taken {n : Nat} (two : 2 ≤ n) : ['{', '{'] <+: text.take n :=
    List.prefix_take_iff.mpr ⟨braces, two⟩
  rcases opening_eq_ok_iff.mp opened with
    ⟨block, read, rfl⟩ | ⟨_, _, _, _, rfl⟩ | ⟨_, _, _, _, rfl⟩ | ⟨cuts, _, _, closed, rfl⟩
  · obtain ⟨opener, content, closer, opens, _, rfl⟩ := RawBlock.read_eq_found_iff.mp read
    have long := four_le_of_markerLength? opens
    exact taken (by dsimp only; omega)
  · exact taken (Nat.le_add_left 2 _)
  · exact braces
  · obtain ⟨inside, rfl⟩ := braces
    have ordered := (Tag.bounds_of_cuts? closed).2
    obtain ⟨cut, later, rfl⟩ := Tag.Scan.exists_of_finish? closed
    exact taken (ordered 2 List.mem_cons_self)

/-- A construct with an end is read from what it consists of. -/
theorem opening_content (opened : opening strict text = .ok region)
    (ends : region.shape ≠ .comment false) : opening true region.content = .ok region := by
  have whole (shape : Shape) (n : Nat) :
      (⟨shape, text.take n⟩ : Region) = ⟨shape, (text.take n).take n⟩ := by
    rw [List.take_take, Nat.min_self]
  rcases opening_eq_ok_iff.mp opened with
    ⟨block, read, rfl⟩ | ⟨length, _, hash, closed, rfl⟩ | ⟨_, _, _, _, rfl⟩ |
    ⟨cuts, absent, hash, closed, rfl⟩
  · exact opening_eq_ok_iff.mpr (.inl ⟨block, RawBlock.read_take read, whole _ _⟩)
  · have goes : Text.startsWith ['{', '{', '#'] (text.take (length + 6)) = true := by
      rw [Text.startsWith_iff_isPrefix] at hash ⊢
      exact List.prefix_take_iff.mpr ⟨hash, Nat.le_add_left 3 _⟩
    refine opening_eq_ok_iff.mpr
      (.inr (.inl ⟨length, RawBlock.read_eq_absent_of_hash goes, goes, ?_, whole _ _⟩))
    rw [List.drop_take]
    exact Text.indexOf?_take closed (Nat.le_refl _)
  · exact absurd rfl ends
  · refine opening_eq_ok_iff.mpr (.inr (.inr (.inr ⟨cuts, RawBlock.read_take_of_absent absent _, ?_,
      Tag.cuts?_take closed, whole _ _⟩)))
    rw [Text.startsWith_eq_false_iff] at hash ⊢
    exact fun starts => hash (starts.trans (List.take_prefix _ _))

theorem opening_take (braces : ['{', '{'] <+: text) (opened : opening strict text = .ok region)
    (within : region.content.length ≤ n) : opening strict (text.take n) = .ok region := by
  by_cases ends : region.shape = .comment false
  · -- A comment without an end takes all of the text.
    rcases opening_eq_ok_iff.mp opened with
      ⟨_, _, rfl⟩ | ⟨_, _, _, _, rfl⟩ | ⟨_, _, _, _, rfl⟩ | ⟨_, _, _, _, rfl⟩
    · exact nomatch ends
    · exact nomatch ends
    · rwa [List.take_of_length_le within]
    · exact nomatch ends
  · obtain ⟨back, rfl⟩ := content_isPrefix opened
    rw [List.take_append, List.take_of_length_le within]
    exact opening_append (braces_content braces opened) (opening_content opened ends) _

/-- A text cut up to the braces at `offset`, which open nothing: the regions in front, and the text
straight before the braces. -/
structure Stop (strict : Bool) (text : List Char) (fault : Fault) (offset : Nat)
    (front : List Region) (last : List Char) : Prop where
  regions : cut strict text = (front ++ [⟨.text, last⟩], some fault)
  built : Built front
  length : offset = (front.map fun region => region.content.length).sum + last.length
  braces : ['{', '{'] <+: text.drop offset
  failed : opening strict (text.drop offset) = .error fault
  alone : cut strict (text.take offset) =
    (front ++ if last.isEmpty then [] else [⟨.text, last⟩], none)

theorem Stop.first (found : Text.indexOf? ['{', '{'] text = some n)
    (failed : opening strict (text.drop n) = .error fault) :
    Stop strict text fault n [] (text.take n) := by
  obtain ⟨inside, starts, _⟩ := Text.indexOf?_eq_some_iff_isPrefix.mp found
  have nowhere := Text.indexOf?_eq_none_iff.mpr (Text.not_infix_take found nofun)
  refine ⟨cut_of_error found failed, nofun, ?_, starts, failed, cut_of_none nowhere⟩
  rw [List.length_take, Nat.min_eq_left inside]
  exact (Nat.zero_add n).symm

theorem Stop.behind {offset : Nat} {front : List Region} {last : List Char}
    (found : Text.indexOf? ['{', '{'] text = some n)
    (opened : opening strict (text.drop n) = .ok region)
    (stop : Stop strict (text.drop (n + region.content.length)) fault offset front last) :
    Stop strict text fault (n + region.content.length + offset)
      (⟨.text, text.take n⟩ :: region :: front) last := by
  obtain ⟨inside, starts, _⟩ := Text.indexOf?_eq_some_iff_isPrefix.mp found
  have two : 2 ≤ region.content.length := (braces_content starts opened).length_le
  have foundAlone : Text.indexOf? ['{', '{'] (text.take (n + region.content.length + offset)) =
      some n := Text.indexOf?_take found (by simp only [List.length_cons, List.length_nil]; omega)
  have openedAlone : opening strict
      ((text.take (n + region.content.length + offset)).drop n) = .ok region := by
    rw [List.drop_take]
    exact opening_take starts opened (by omega)
  refine ⟨?_, ?_, ?_, ?_, ?_, ?_⟩
  · rw [cut_of_ok found opened, stop.regions]
    rfl
  · -- The text in front of a region cannot be the last one.
    have built : Built (region :: front) := stop.built.cons (shape_ne_text opened)
    simpa only [Built, List.getLast?_cons_cons] using built
  · rw [stop.length]
    simp only [List.map_cons, List.sum_cons, List.length_take, Nat.min_eq_left inside]
    omega
  · rw [← List.drop_drop]
    exact stop.braces
  · rw [← List.drop_drop]
    exact stop.failed
  · rw [cut_of_ok foundAlone openedAlone, List.drop_take, Nat.add_sub_cancel_left, stop.alone,
      List.take_take, Nat.min_eq_left (by omega)]
    rfl

theorem exists_stop (failed : (cut strict text).2 = some fault) :
    ∃ offset front last, Stop strict text fault offset front last := by
  fun_induction cut strict text with
  | case1 text nowhere => cases failed
  | case2 text n found other opened =>
    cases failed
    exact ⟨n, [], text.take n, .first found opened⟩
  | case3 text n found region opened later other rest ih =>
    rw [rest] at ih
    obtain ⟨offset, front, last, stop⟩ := ih failed
    exact ⟨_, _, last, stop.behind found opened⟩

/-- Nothing is missing without the braces but an empty text, which has no token. -/
theorem Stop.emit_eq {offset : Nat} {front : List Region} {last : List Char}
    (stop : Stop strict text fault offset front last) (start : Nat) (before : Option Region) :
    emit start before (cut strict (text.take offset)).1 = emit start before (cut strict text).1 := by
  rw [stop.alone, stop.regions]
  cases last with
  | nil =>
    have nothing (start : Nat) (before : Option Region) : emit start before [⟨.text, []⟩] = [] := by
      simp [emit, tokens, Text.trimLeft]
    rw [emit_append stop.built start before [⟨.text, []⟩], nothing]
    simp
  | cons c last => rfl

end Region

variable {strict : Bool} {source : List Char}

theorem exists_stop_of_error {failure : Failure} (failed : tokenize strict source = .error failure) :
    ∃ front last, Region.Stop strict source failure.fault failure.offset front last := by
  obtain ⟨met, offset⟩ := tokenize_eq_error_iff.mp failed
  obtain ⟨place, front, last, stop⟩ := Region.exists_stop met
  have same : failure.offset = place := by
    rw [offset, stop.regions, stop.length]
    simp
  exact ⟨front, last, same ▸ stop⟩

/-- The tokens that the lexer leaves at a fault are those of the text in front of the braces. -/
theorem tokenize_take {failure : Failure} (failed : tokenize strict source = .error failure) :
    tokenize strict (source.take failure.offset) =
      .ok ((Lexer.State.start source).run strict).1.tokens := by
  obtain ⟨front, last, stop⟩ := exists_stop_of_error failed
  rw [tokenize_eq_ok_iff, stop.emit_eq, tokens_run, stop.alone]
  exact ⟨rfl, rfl⟩

namespace Fault

def Concerns (source : List Char) (offset : Nat) : Fault → Prop
  | .unclosedRawBlock => ∃ length, MarkedBy ['r', 'a', 'w'] (source.drop offset) length
  | .unterminatedComment => ['{', '{', '#'] <+: source.drop offset
  | .unclosedTag => ¬ (∃ length, MarkedBy ['r', 'a', 'w'] (source.drop offset) length) ∧
      ¬ ['{', '{', '#'] <+: source.drop offset

def Endless (strict : Bool) (source : List Char) (offset : Nat) : Fault → Prop
  | .unclosedRawBlock => ∀ length, MarkedBy ['r', 'a', 'w'] (source.drop offset) length →
      ¬ HoldsMarker ['/', 'r', 'a', 'w'] (source.drop (offset + length))
  | .unterminatedComment => strict = true ∧ ¬ ['#', '}', '}'] <:+: source.drop (offset + 3)
  | .unclosedTag => Tag.readAt source offset = .unclosed

variable {fault other : Fault} {offset : Nat}

theorem Concerns.unique (first : fault.Concerns source offset)
    (second : other.Concerns source offset) : fault = other := by
  have apart : (∃ length, MarkedBy ['r', 'a', 'w'] (source.drop offset) length) →
      ¬ ['{', '{', '#'] <+: source.drop offset := by
    rintro ⟨length, marked⟩
    exact Text.startsWith_eq_false_iff.mp marked.not_hash
  cases fault with
  | unclosedTag =>
    cases other with
    | unclosedTag => rfl
    | unclosedRawBlock => exact absurd second first.1
    | unterminatedComment => exact absurd second first.2
  | unclosedRawBlock =>
    cases other with
    | unclosedTag => exact absurd first second.1
    | unclosedRawBlock => rfl
    | unterminatedComment => exact absurd second (apart first)
  | unterminatedComment =>
    cases other with
    | unclosedTag => exact absurd first second.2
    | unclosedRawBlock => exact absurd first (apart second)
    | unterminatedComment => rfl

theorem concerns_of_opening
    (failed : Region.opening strict (source.drop offset) = .error fault) :
    fault.Concerns source offset ∧ fault.Endless strict source offset := by
  have unopened (absent : RawBlock.read (source.drop offset) = .absent) :
      ¬ ∃ length, MarkedBy ['r', 'a', 'w'] (source.drop offset) length := by
    rintro ⟨length, marked⟩
    have opens := RawBlock.openerLength?_eq_some_iff.mpr marked
    rw [RawBlock.read_eq_absent_iff.mp absent] at opens
    exact nomatch opens
  rcases Region.opening_eq_error_iff.mp failed with
    ⟨read, rfl⟩ | ⟨_, hash, unclosed, rfl, rfl⟩ | ⟨absent, hash, unclosed, rfl⟩
  · obtain ⟨opener, opens, unclosed⟩ := RawBlock.read_eq_unclosed_iff.mp read
    refine ⟨⟨opener, RawBlock.openerLength?_eq_some_iff.mp opens⟩, fun length marked => ?_⟩
    obtain rfl : opener = length :=
      Option.some.inj (opens.symm.trans (RawBlock.openerLength?_eq_some_iff.mpr marked))
    rw [List.drop_drop] at unclosed
    exact (first?_markerLength?_eq_none_iff markerName_slash_raw).mp unclosed
  · rw [List.drop_drop] at unclosed
    exact ⟨Text.startsWith_iff_isPrefix.mp hash, rfl, Text.indexOf?_eq_none_iff.mp unclosed⟩
  · exact ⟨⟨unopened absent, Text.startsWith_eq_false_iff.mp hash⟩,
      Tag.readAt_eq_unclosed_iff.mpr unclosed⟩

end Fault

/-- A fault is found at the first braces that open nothing, and told by what they would open. The
tokens emitted so far are those of the text in front of them. -/
theorem lex_eq_error {fault : Fault} {place : Position}
    (failed : lex strict source = .error (fault, place)) :
    ∃ offset : Nat, place = (LineIndex.ofText source).position offset ∧
      ['{', '{'] <+: source.drop offset ∧
      (∀ other : Fault, fault = other ↔ other.Concerns source offset) ∧
      fault.Endless strict source offset ∧
      lex strict (source.take offset) =
        .ok (((Lexer.State.start source).run strict).1.tokens.map
          (Token.locate (LineIndex.ofText source))) := by
  unfold lex at failed
  split at failed
  · exact nomatch failed
  · next failure stopped =>
    cases failed
    obtain ⟨front, last, stop⟩ := exists_stop_of_error stopped
    obtain ⟨concerns, endless⟩ := Fault.concerns_of_opening stop.failed
    have alone := tokenize_take stopped
    refine ⟨failure.offset, rfl, stop.braces, fun other => ⟨?_, concerns.unique⟩, endless, ?_⟩
    · rintro rfl
      exact concerns
    · rw [lex, alone]
      refine congrArg Except.ok (List.map_congr_left fun token member => ?_)
      rw [← locate_append (le_of_tokenize alone member) (source.drop failure.offset),
        List.take_append_drop]

/-- The blank in front of the last braces is kept, since the tag that would trim it does not end. -/
theorem lex_eq_error_untrimmed :
    let source := "a \x7b\x7b- b \x7d\x7d \x7b\x7b- '".toList
    lex true source = .error (.unclosedTag, ⟨1, 12, 11⟩) ∧
      ∃ offset : Nat, (⟨1, 12, 11⟩ : Position) = (LineIndex.ofText source).position offset ∧
        ['{', '{'] <+: source.drop offset ∧
        (∀ other : Fault, .unclosedTag = other ↔ other.Concerns source offset) ∧
        Fault.unclosedTag.Endless true source offset ∧
        lex true (source.take offset) =
          .ok (((Lexer.State.start source).run true).1.tokens.map
            (Token.locate (LineIndex.ofText source))) := by
  have failed : lex true "a \x7b\x7b- b \x7d\x7d \x7b\x7b- '".toList =
      .error (.unclosedTag, ⟨1, 12, 11⟩) := by
    decide +kernel
  exact ⟨failed, lex_eq_error failed⟩

end TemplateLexer
