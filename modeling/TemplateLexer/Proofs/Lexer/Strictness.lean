import TemplateLexer.Proofs.Lexer.Stop

/-! What it matters whether a comment must close. The two ways of lexing keep together up to a
comment without an end; there the strict one stops, and the other takes the rest of the source. -/

set_option autoImplicit false

namespace TemplateLexer

namespace Region

variable {text : List Char}

theorem opening_false_cases (text : List Char) :
    (opening false text = opening true text ∧
      opening true text ≠ .error .unterminatedComment) ∨
    (opening true text = .error .unterminatedComment ∧
      opening false text = .ok ⟨.comment false, text⟩) := by
  unfold opening
  cases RawBlock.read text with
  | found block => exact .inl ⟨rfl, nofun⟩
  | unclosed => exact .inl ⟨rfl, nofun⟩
  | absent =>
    cases Text.startsWith ['{', '{', '#'] text with
    | false => cases Tag.cuts? text <;> exact .inl ⟨rfl, nofun⟩
    | true =>
      cases Text.indexOf? ['#', '}', '}'] (text.drop 3) with
      | some length => exact .inl ⟨rfl, nofun⟩
      | none => exact .inr ⟨rfl, rfl⟩

/-- The regions are the same, but for the comment that takes the rest of the text. -/
theorem cut_false_cases (text : List Char) :
    (cut false text = cut true text ∧ (cut true text).2 ≠ some .unterminatedComment) ∨
    ∃ offset front last, Stop true text .unterminatedComment offset front last ∧
      cut false text =
        (front ++ [⟨.text, last⟩, ⟨.comment false, text.drop offset⟩], none) := by
  -- Both are cut alike in front of each construct, so one induction goes through the two.
  fun_induction cut true text with
  | case1 text nowhere => exact .inl ⟨cut_of_none nowhere, (Option.some_ne_none _).symm⟩
  | case2 text n found fault failed =>
    rcases opening_false_cases (text.drop n) with ⟨same, other⟩ | ⟨unclosed, opened⟩
    · refine .inl ⟨cut_of_error found (same.trans failed), ?_⟩
      rintro ⟨⟩
      exact other failed
    · cases failed.symm.trans unclosed
      refine .inr ⟨n, [], text.take n, .first found failed, ?_⟩
      have nothing : text.drop (n + (text.drop n).length) = [] := by
        rw [← List.drop_drop, List.drop_length]
      rw [cut_of_ok found opened, nothing, cut_nil]
      rfl
  | case3 text n found region opened later fault rest ih =>
    rw [rest] at ih
    have openedFalse : opening false (text.drop n) = .ok region := by
      rcases opening_false_cases (text.drop n) with ⟨same, _⟩ | ⟨unclosed, _⟩
      · exact same.trans opened
      · cases unclosed.symm.trans opened
    rw [cut_of_ok found openedFalse]
    rcases ih with ⟨same, other⟩ | ⟨offset, front, last, stop, permissive⟩
    · exact .inl ⟨by rw [same], other⟩
    · refine .inr ⟨_, _, last, stop.behind found opened, ?_⟩
      rw [permissive, List.drop_drop]
      rfl

-- The text in front of a construct without a trim mark is emitted as if it were the last.
theorem emit_concat {front : List Region} {region : Region} (built : Built front)
    (solid : region.shape ≠ .text) (keeps : region.trimsBefore = false) (start : Nat)
    (before : Option Region) (last : List Char) :
    emit start before (front ++ [⟨.text, last⟩, region]) =
      emit start before (front ++ [⟨.text, last⟩]) ++
        region.tokens
          (start + ((front.map fun region => region.content.length).sum + last.length)) none none := by
  rw [emit_append built, emit_append built, emit_piece solid, Lexer.tokens_text_of_not_trims keeps,
    Nat.add_assoc]
  simp [emit]

end Region

variable {source : List Char}

theorem tokenize_false_of_cut (same : Region.cut false source = Region.cut true source) :
    tokenize false source = tokenize true source := by
  cases lexed : tokenize true source with
  | ok tokens =>
    rw [tokenize_eq_ok_iff, same]
    exact tokenize_eq_ok_iff.mp lexed
  | error failure =>
    rw [tokenize_eq_error_iff, same]
    exact tokenize_eq_error_iff.mp lexed

theorem tokenize_of_stop {offset : Nat} {front : List Region} {last : List Char}
    (stop : Region.Stop true source .unterminatedComment offset front last)
    (permissive : Region.cut false source =
      (front ++ [⟨.text, last⟩, ⟨.comment false, source.drop offset⟩], none)) :
    tokenize true source = .error ⟨.unterminatedComment, offset⟩ ∧
      tokenize false source = .ok (((Lexer.State.start source).run true).1.tokens ++
        [⟨⟨.comment, source.drop (offset + 3)⟩, offset, source.length⟩]) := by
  have room := stop.braces.length_le
  rw [List.length_drop, List.length_cons, List.length_singleton] at room
  have ending : offset + (source.length - offset) = source.length := by
    omega
  have solid : (⟨.comment false, source.drop offset⟩ : Region).shape ≠ .text := nofun
  constructor
  · rw [tokenize_eq_error_iff, stop.regions, stop.length]
    simp
  · rw [tokenize_eq_ok_iff, permissive, tokens_run, stop.regions,
      Region.emit_concat stop.built solid rfl, ← stop.length, Nat.zero_add]
    simp [Region.tokens, ending]

theorem tokenize_false_cases (source : List Char) :
    (tokenize false source = tokenize true source ∧
      ∀ failure, tokenize true source = .error failure → failure.fault ≠ .unterminatedComment) ∨
    ∃ offset tokens, tokenize true source = .error ⟨.unterminatedComment, offset⟩ ∧
      tokenize false source = .ok tokens := by
  rcases Region.cut_false_cases source with ⟨same, other⟩ | ⟨offset, front, last, stop, permissive⟩
  · refine .inl ⟨tokenize_false_of_cut same, fun failure failed comment => other ?_⟩
    rw [(tokenize_eq_error_iff.mp failed).1, comment]
  · obtain ⟨strict, lexed⟩ := tokenize_of_stop stop permissive
    exact .inr ⟨offset, _, strict, lexed⟩

-- Letting comments stay open takes failures away, and adds or moves none.
theorem tokenize_true_of_error {strict : Bool} {failure : Failure}
    (failed : tokenize strict source = .error failure) :
    tokenize true source = .error failure := by
  cases strict with
  | true => exact failed
  | false =>
    rcases tokenize_false_cases source with ⟨same, _⟩ | ⟨_, _, _, lexed⟩
    · exact same.symm.trans failed
    · cases lexed.symm.trans failed

/-- Whether comments must close matters only to a comment that does not. The lexer that allows it
goes on from where the strict one fails, and ends with that comment. -/
theorem lex_permissive (source : List Char) :
    (lex false source = lex true source ∧
      ∀ place, lex true source ≠ .error (.unterminatedComment, place)) ∨
    ∃ offset : Nat,
      lex true source =
        .error (.unterminatedComment, (LineIndex.ofText source).position offset) ∧
      lex false source = .ok ((((Lexer.State.start source).run true).1.tokens ++
        [(⟨⟨.comment, source.drop (offset + 3)⟩, offset, source.length⟩ : Token Nat)]).map
          (Token.locate (LineIndex.ofText source))) ∧
      ¬ ['#', '}', '}'] <:+: source.drop (offset + 3) := by
  rcases Region.cut_false_cases source with ⟨same, other⟩ | ⟨offset, front, last, stop, permissive⟩
  · refine .inl ⟨by rw [lex, lex, tokenize_false_of_cut same], fun place failed => ?_⟩
    unfold lex at failed
    split at failed
    · cases failed
    · next failure stopped =>
      obtain ⟨fault, _⟩ := Prod.mk.inj (Except.error.inj failed)
      exact other (fault ▸ (tokenize_eq_error_iff.mp stopped).1)
  · obtain ⟨strict, lexed⟩ := tokenize_of_stop stop permissive
    refine .inr ⟨offset, ?_, ?_, (Fault.concerns_of_opening stop.failed).2.2⟩
    · rw [lex, strict]
    · rw [lex, lexed]

end TemplateLexer
