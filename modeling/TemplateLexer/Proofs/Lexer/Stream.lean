import TemplateLexer.Proofs.Lexeme
import TemplateLexer.Proofs.Lexer.Regions

/-! The tokens that have been emitted, after any number of steps. A later tag may change or drop
the latest of them; that neither leaves a filter without its tag nor brings two texts together. -/

set_option autoImplicit false

namespace TemplateLexer

/-- Up to blanks at its ends, the value is what the source holds between the token's offsets. -/
def Token.IsPiece (source : List Char) (token : Token Nat) : Prop :=
  token.stop ≤ source.length ∧ ∃ lead tail : List Char, (∀ c ∈ lead, Text.isBlank c = true) ∧
    (∀ c ∈ tail, Text.isBlank c = true) ∧
    Text.slice source token.start token.stop = lead ++ (token.value ++ tail)

theorem Token.IsPiece.trimRight {source : List Char} {token : Token Nat}
    (piece : token.IsPiece source) :
    Token.IsPiece source { token with value := Text.trimRight token.value } := by
  obtain ⟨inside, lead, others, leading, blank, cut⟩ := piece
  obtain ⟨tail, trailing, whole⟩ := Text.exists_blanks_trimRight token.value
  refine ⟨inside, lead, tail ++ others, leading, fun c member => ?_, ?_⟩
  · exact (List.mem_append.mp member).elim (trailing c) (blank c)
  · rw [cut, ← List.append_assoc (Text.trimRight token.value), ← whole]

structure Stream (source : List Char) (tokens : List (Token Nat)) : Prop where
  ascending : tokens.Pairwise fun first second => first.start < second.start
  first : ∀ token ∈ tokens.head?, token.kind ≠ .filter
  ordered : tokens.IsChain fun first second => first.toLexeme.Precedes second.toLexeme
  sound : ∀ token ∈ tokens, token.toLexeme.Sound
  pieces : ∀ token ∈ tokens, token.kind = .text → token.IsPiece source

namespace Stream

variable {source : List Char} {tokens more : List (Token Nat)} {token : Token Nat}

theorem nil (source : List Char) : Stream source [] :=
  ⟨List.Pairwise.nil, nofun, List.isChain_nil, nofun, nofun⟩

theorem single (solid : token.kind ≠ .filter) (sound : token.toLexeme.Sound)
    (piece : token.kind = .text → token.IsPiece source) : Stream source [token] where
  ascending := List.pairwise_singleton _ _
  first := by
    intro other member
    cases member
    exact solid
  ordered := List.isChain_singleton _
  sound := List.forall_mem_singleton.mpr sound
  pieces := List.forall_mem_singleton.mpr piece

theorem append (front : Stream source tokens) (back : Stream source more)
    (ahead : ∀ token ∈ tokens, ∀ next ∈ more, token.start < next.start)
    (apart : ∀ last ∈ tokens.getLast?, ∀ next ∈ more.head?, next.kind = .text → last.kind ≠ .text) :
    Stream source (tokens ++ more) where
  ascending := List.pairwise_append.mpr ⟨front.ascending, back.ascending, ahead⟩
  first := by
    intro token member
    cases tokens with
    | nil => exact back.first token member
    | cons first later => exact front.first token member
  ordered := front.ordered.append back.ordered fun last latest next member =>
    ⟨fun filter => absurd filter (back.first next member), apart last latest next member⟩
  sound := fun token member =>
    (List.mem_append.mp member).elim (front.sound token) (back.sound token)
  pieces := fun token member =>
    (List.mem_append.mp member).elim (front.pieces token) (back.pieces token)

theorem left_of_append (stream : Stream source (tokens ++ more)) : Stream source tokens where
  ascending := (List.pairwise_append.mp stream.ascending).1
  first := by
    intro token member
    refine stream.first token ?_
    rw [List.head?_append, Option.mem_def.mp member]
    rfl
  ordered := stream.ordered.left_of_append
  sound := fun token member => stream.sound token (List.mem_append_left more member)
  pieces := fun token member => stream.pieces token (List.mem_append_left more member)

/-- Another text can stand where the last one stands. -/
theorem replace_text (stream : Stream source (tokens ++ [token])) (text : token.kind = .text)
    {other : Token Nat} (same : other.start = token.start) (kind : other.kind = .text)
    (sound : other.toLexeme.Sound) (piece : other.IsPiece source) :
    Stream source (tokens ++ [other]) := by
  have last := List.mem_singleton_self token
  refine stream.left_of_append.append (.single ?_ sound fun _ => piece) ?_ ?_
  · rw [kind]
    decide
  · intro earlier member next only
    rw [List.mem_singleton.mp only, same]
    exact (List.pairwise_append.mp stream.ascending).2.2 earlier member token last
  · intro earlier member next only _
    exact ((List.isChain_append.mp stream.ordered).2.2 earlier member token rfl).2 text

end Stream

namespace Lexer

variable {strict : Bool} {source : List Char}

-- Only text is trimmed, and only the latest token.
theorem trimLatest_cases (emitted : List (Token Nat)) :
    trimLatest emitted = emitted ∨
      ∃ token older, emitted = token :: older ∧ token.kind = .text ∧
        (trimLatest emitted = older ∨ Text.trimRight token.value ≠ [] ∧
          trimLatest emitted = { token with value := Text.trimRight token.value } :: older) := by
  cases emitted with
  | nil => exact .inl rfl
  | cons token older =>
    by_cases text : token.kind = .text
    · refine .inr ⟨token, older, rfl, text, ?_⟩
      simp only [trimLatest, if_pos text]
      split
      · exact .inl rfl
      · next more => exact .inr ⟨fun nothing => more (List.isEmpty_iff.mpr nothing), rfl⟩
    · exact .inl (if_neg text)

theorem stream_trimLatest {emitted : List (Token Nat)} (stream : Stream source emitted.reverse) :
    Stream source (trimLatest emitted).reverse := by
  rcases trimLatest_cases emitted with same | ⟨token, older, rfl, text, same | ⟨more, same⟩⟩
  · rwa [same]
  · rw [List.reverse_cons] at stream
    rw [same]
    exact stream.left_of_append
  · rw [List.reverse_cons] at stream
    have last : token ∈ older.reverse ++ [token] :=
      List.mem_append_right _ (List.mem_singleton_self token)
    have sound := stream.sound token last
    simp only [Lexeme.Sound, text] at sound
    rw [same, List.reverse_cons]
    refine stream.replace_text text rfl text ?_ (stream.pieces token last text).trimRight
    simp only [Lexeme.Sound, text]
    exact ⟨more, fun braces =>
      sound.2 (braces.trans (Text.trimRight_isPrefix token.value).isInfix)⟩

theorem exists_of_mem_trimLatest {emitted : List (Token Nat)} {token : Token Nat}
    (member : token ∈ trimLatest emitted) : ∃ other ∈ emitted, token.start = other.start := by
  rcases trimLatest_cases emitted with same | ⟨latest, older, rfl, _, same | ⟨_, same⟩⟩
  · exact ⟨token, same ▸ member, rfl⟩
  · exact ⟨token, List.mem_cons_of_mem latest (same ▸ member), rfl⟩
  · rw [same] at member
    rcases List.mem_cons.mp member with rfl | member
    · exact ⟨latest, List.mem_cons_self, rfl⟩
    · exact ⟨token, List.mem_cons_of_mem latest member, rfl⟩

theorem map_start_tagTokens (start : Nat) (segments : List Tag.Segment) :
    ((tagTokens segments).1.map (Token.shift start)).map Token.start =
      (segments.map Tag.Segment.start).map (start + ·) := by
  rw [tagTokens_eq]
  apply List.ext_getElem?
  intro i
  simp [Token.shift, Token.map, Function.comp_def]

theorem kind_of_mem_shift {start : Nat} {segments : List Tag.Segment} {token : Token Nat}
    (member : token ∈ (tagTokens segments).1.map (Token.shift start)) :
    token.kind = .tag ∨ token.kind = .filter := by
  obtain ⟨other, among, rfl⟩ := List.mem_map.mp member
  have kind := kind_of_mem_tagTokens among
  exact kind

theorem of_getElem?_shift {start i : Nat} {segments : List Tag.Segment} {token : Token Nat}
    (here : ((tagTokens segments).1.map (Token.shift start))[i]? = some token) :
    token.kind = (if i = 0 then .tag else .filter) ∧ Text.Trimmed token.value := by
  rw [tagTokens_eq, List.getElem?_map, List.getElem?_mapIdx, Option.map_map] at here
  obtain ⟨segment, _, rfl⟩ := Option.map_eq_some_iff.mp here
  exact ⟨rfl, Text.trimmed_trim _⟩

/-- The tokens of a tag, which stand behind the braces that open it. -/
theorem stream_tagTokens {inside : List Char} {cuts : List Nat} (source : List Char) (start : Nat)
    (closed : Tag.cuts? ('{' :: '{' :: inside) = some cuts) :
    Stream source ((tagTokens (Tag.segments ('{' :: '{' :: inside) cuts)).1.map
      (Token.shift start)) where
  ascending := by
    have starts := (Tag.ascending_of_cuts? closed).sublist (List.dropLast_sublist cuts)
    rw [← Tag.map_start_segments ('{' :: '{' :: inside)] at starts
    rw [← List.pairwise_map, map_start_tagTokens, List.pairwise_map]
    exact starts.imp fun less => Nat.add_lt_add_left less start
  first := by
    intro token member
    rw [List.head?_eq_getElem?] at member
    rw [(of_getElem?_shift member).1]
    nofun
  ordered := by
    rw [List.isChain_iff_getElem]
    intro i more
    have later := (of_getElem?_shift (List.getElem?_eq_getElem more)).1
    rw [if_neg (Nat.succ_ne_zero i)] at later
    refine ⟨fun _ => kind_of_mem_shift (List.getElem_mem _), fun text => ?_⟩
    exact absurd text (kind_ne_text (.inr later))
  sound := by
    intro token member
    obtain ⟨i, here⟩ := List.mem_iff_getElem?.mp member
    have trimmed := (of_getElem?_shift here).2
    rcases kind_of_mem_shift member with same | same
    · simpa only [Lexeme.Sound, same] using trimmed
    · simpa only [Lexeme.Sound, same] using trimmed
  pieces := fun token member text => absurd text (kind_ne_text (kind_of_mem_shift member))

structure State.Consumed (source : List Char) (state : State) : Prop where
  rest : state.rest = source.drop state.offset
  stream : Stream source state.tokens
  behind : ∀ token ∈ state.emitted, token.start < state.offset

namespace State.Consumed

variable {state : State} {n : Nat}

theorem length_le (consumed : state.Consumed source) (left : state.rest ≠ [])
    (inside : n ≤ state.rest.length) : state.offset + n ≤ source.length := by
  have more := List.length_pos_iff.mpr left
  rw [consumed.rest, List.length_drop] at more inside
  omega

theorem drop (consumed : state.Consumed source) (n : Nat) :
    state.rest.drop n = source.drop (state.offset + n) := by
  rw [consumed.rest, List.drop_drop]

/-- A token is emitted for what stands at the offset. -/
theorem emit (consumed : state.Consumed source) {token : Token Nat}
    (start : token.start = state.offset) (solid : token.kind ≠ .filter)
    (sound : token.toLexeme.Sound) (piece : token.kind = .text → token.IsPiece source)
    (apart : token.kind = .text → ∀ latest ∈ state.emitted.head?, latest.kind ≠ .text) :
    Stream source (token :: state.emitted).reverse := by
  rw [List.reverse_cons]
  refine consumed.stream.append (.single solid sound piece) ?_ ?_
  · intro earlier member next only
    rw [List.mem_singleton.mp only, start]
    exact consumed.behind earlier (List.mem_reverse.mp member)
  · intro latest member next only text
    cases only
    rw [tokens, List.getLast?_reverse] at member
    exact apart text latest member

theorem take (consumed : state.Consumed source) (kind : Kind) (value : List Char)
    (positive : 0 < n) (solid : kind ≠ .filter) (other : kind ≠ .text)
    (sound : Lexeme.Sound ⟨kind, value⟩) : (state.take n kind value).Consumed source where
  rest := consumed.drop n
  stream := consumed.emit rfl solid sound (fun text => absurd text other)
    (fun text => absurd text other)
  behind := by
    intro token member
    rcases List.mem_cons.mp member with rfl | member
    · exact Nat.lt_add_of_pos_right positive
    · exact Nat.lt_add_right n (consumed.behind token member)

theorem takeText (consumed : state.Consumed source) (left : state.rest ≠ [])
    (inside : n ≤ state.rest.length) (nowhere : ¬ ['{', '{'] <:+: state.rest.take n)
    (apart : 0 < n → ∀ latest ∈ state.emitted.head?, latest.kind ≠ .text) :
    (state.takeText n).Consumed source := by
  -- Whether it is trimmed or not, the value ends the text that it stands for.
  obtain ⟨value, same, lead, leading, whole⟩ : ∃ value,
      (if state.trimNext then Text.trimLeft (state.rest.take n) else state.rest.take n) = value ∧
        ∃ lead, (∀ c ∈ lead, Text.isBlank c = true) ∧ state.rest.take n = lead ++ value := by
    split
    · exact ⟨_, rfl, Text.exists_blanks_trimLeft _⟩
    · exact ⟨_, rfl, [], List.forall_mem_nil _, rfl⟩
  have emitted : (state.takeText n).emitted = if value.isEmpty then state.emitted
      else ⟨⟨.text, value⟩, state.offset, state.offset + n⟩ :: state.emitted := by
    rw [← same]
    rfl
  cases value with
  | nil =>
    refine ⟨consumed.drop n, ?_, fun token member => ?_⟩
    · rw [tokens, emitted]
      exact consumed.stream
    · rw [emitted] at member
      exact Nat.lt_add_right n (consumed.behind token member)
  | cons c value =>
    have long := congrArg List.length whole
    rw [List.length_take, List.length_append, List.length_cons] at long
    have positive : 0 < n := by omega
    refine ⟨consumed.drop n, ?_, fun token member => ?_⟩
    · rw [tokens, emitted]
      have solid : Kind.text ≠ .filter := by decide
      refine consumed.emit rfl solid ?_ (fun _ => ?_) fun _ => apart positive
      · refine ⟨List.cons_ne_nil c value, fun braces => nowhere ?_⟩
        rw [whole]
        exact braces.trans (List.suffix_append lead _).isInfix
      · refine ⟨consumed.length_le left inside, lead, [], leading, List.forall_mem_nil _, ?_⟩
        rw [List.append_nil, ← whole, Text.slice, Nat.add_sub_cancel_left, consumed.rest]
    · rw [emitted] at member
      rcases List.mem_cons.mp member with rfl | member
      · exact Nat.lt_add_of_pos_right positive
      · exact Nat.lt_add_right n (consumed.behind token member)

/-- What a tag leaves of the tokens before it, whether it trims the latest of them or not. -/
theorem trimmed (consumed : state.Consumed source) (marked : Bool) :
    Stream source (if marked then trimLatest state.emitted else state.emitted).reverse ∧
      ∀ token ∈ if marked then trimLatest state.emitted else state.emitted,
        token.start < state.offset := by
  cases marked with
  | false => exact ⟨consumed.stream, consumed.behind⟩
  | true =>
    refine ⟨stream_trimLatest consumed.stream, fun token member => ?_⟩
    obtain ⟨other, among, same⟩ := exists_of_mem_trimLatest member
    exact same ▸ consumed.behind other among

end State.Consumed

/-- Outside of text mode, and behind a text, the source goes on with opening braces. So neither is
a text emitted behind a text, nor a tag read anywhere but at its braces. -/
structure State.Coherent (source : List Char) (state : State) : Prop extends
    state.Consumed source where
  braces : state.mode ≠ .text ∨ (∃ latest ∈ state.emitted.head?, latest.kind = .text) →
    state.rest ≠ [] → ['{', '{'] <+: state.rest

namespace State.Coherent

variable {state : State} {n : Nat}

theorem start (source : List Char) : (State.start source).Coherent source where
  rest := rfl
  stream := .nil source
  behind := nofun
  braces := by
    rintro (other | ⟨latest, member, _⟩)
    · exact absurd rfl other
    · exact nomatch member

-- Behind a text the braces come at once.
theorem takeText (coherent : state.Coherent source) (left : state.rest ≠ [])
    (nowhere : ¬ ['{', '{'] <:+: state.rest.take n) (inside : n ≤ state.rest.length)
    (far : 0 < n → ¬ ['{', '{'] <+: state.rest) : (state.takeText n).Consumed source :=
  coherent.toConsumed.takeText left inside nowhere fun positive latest member text =>
    far positive (coherent.braces (.inr ⟨latest, member, text⟩) left)

theorem textStep (coherent : state.Coherent source) (left : state.rest ≠ [])
    (mode : state.mode = .text) : state.textStep.1.Coherent source := by
  cases found : Text.indexOf? ['{', '{'] state.rest with
  | none =>
    have nowhere := Text.indexOf?_eq_none_iff.mp found
    have nothing : (state.takeText state.rest.length).rest = [] := List.drop_length
    rw [textStep_of_none found]
    refine ⟨coherent.takeText left ?_ (Nat.le_refl _) fun _ starts => nowhere starts.isInfix,
      fun _ more => absurd nothing more⟩
    rwa [List.take_length]
  | some n =>
    obtain ⟨inside, starts, before⟩ := Text.indexOf?_eq_some_iff_isPrefix.mp found
    have reached : (state.takeText n).Consumed source :=
      coherent.takeText left (Text.not_infix_take found nofun) inside fun positive early =>
        before 0 positive early
    have braces : ['{', '{'] <+: (state.takeText n).rest := starts
    cases read : RawBlock.read (state.rest.drop n) with
    | unclosed =>
      rw [textStep_unclosed found read]
      exact ⟨reached, fun _ _ => braces⟩
    | found block =>
      rw [textStep_found found read]
      have content := RawBlock.first?_content read
      refine ⟨reached.take .raw _ (RawBlock.ne_nil_of_read read).2 nofun nofun ?_, ?_⟩
      · exact (first?_markerLength?_eq_none_iff markerName_slash_raw).mp content
      · rintro (other | ⟨latest, member, text⟩)
        · exact absurd mode other
        · cases member
          exact nomatch text
    | absent =>
      rw [textStep_absent found read]
      exact ⟨⟨reached.rest, reached.stream, reached.behind⟩, fun _ _ => braces⟩

theorem commentStep (coherent : state.Coherent source) (left : state.rest ≠ []) :
    (state.commentStep strict).1.Coherent source := by
  cases found : Text.indexOf? ['#', '}', '}'] (state.rest.drop 3) with
  | some length =>
    have taken := coherent.toConsumed.take .comment _ (Nat.succ_pos (length + 5))
      (by decide) (by decide) (Text.not_infix_take found (List.cons_ne_nil _ _))
    simp only [State.commentStep, found]
    refine ⟨⟨taken.rest, taken.stream, taken.behind⟩, ?_⟩
    rintro (other | ⟨latest, member, text⟩)
    · exact absurd rfl other
    · cases member
      cases text
  | none =>
    cases strict with
    | true =>
      simp only [State.commentStep, found]
      exact coherent
    | false =>
      have nothing : state.rest.drop state.rest.length = [] := List.drop_length
      have taken := coherent.toConsumed.take .comment _ (List.length_pos_iff.mpr left)
        (by decide) (by decide) (Text.indexOf?_eq_none_iff.mp found)
      simp only [State.commentStep, found]
      exact ⟨taken, fun _ more => absurd nothing more⟩

theorem tagStep (coherent : state.Coherent source) (left : state.rest ≠ [])
    (mode : state.mode = .tag) : state.tagStep.1.Coherent source := by
  have other : state.mode ≠ .text := by
    rw [mode]
    decide
  obtain ⟨inside, whole⟩ : ∃ inside, '{' :: '{' :: inside = state.rest :=
    coherent.braces (.inl other) left
  cases closed : Tag.cuts? state.rest with
  | none => simpa only [State.tagStep, closed] using coherent
  | some cuts =>
    rw [← whole] at closed
    rw [tagStep_closed whole.symm closed]
    have earlier := coherent.toConsumed.trimmed
      ((Tag.segments ('{' :: '{' :: inside) cuts).head?.any (opensWithDash ·.code))
    generalize (if (Tag.segments ('{' :: '{' :: inside) cuts).head?.any
      (opensWithDash ·.code) then trimLatest state.emitted else state.emitted) = older at earlier ⊢
    refine ⟨⟨?_, ?_, ?_⟩, ?_⟩
    · exact (congrArg _ whole).trans (coherent.drop _)
    · rw [tokens, List.reverse_append, List.reverse_reverse]
      refine earlier.1.append (stream_tagTokens source state.offset closed) ?_ ?_
      · intro token member next later
        obtain ⟨segment, _, rfl⟩ := List.mem_map.mp later
        exact Nat.lt_of_lt_of_le (earlier.2 token (List.mem_reverse.mp member))
          (Nat.le_add_right _ _)
      · intro token _ next later text
        exact absurd text (kind_ne_text (kind_of_mem_shift (List.mem_of_head? later)))
    · intro token member
      rcases List.mem_append.mp member with here | before
      · have start := List.mem_map_of_mem (f := Token.start) (List.mem_reverse.mp here)
        rw [map_start_tagTokens, List.map_map] at start
        obtain ⟨segment, among, same⟩ := List.mem_map.mp start
        rw [← same]
        exact Nat.add_lt_add_left (Tag.start_lt_of_mem_segments closed among) state.offset
      · exact Nat.lt_add_right _ (earlier.2 token before)
    · obtain ⟨token, latest, kind⟩ :=
        exists_head?_tag (Tag.segments_ne_nil closed) state.offset older
      rintro (other | ⟨last, member, text⟩)
      · exact absurd rfl other
      · rw [Option.mem_unique member latest] at text
        exact absurd text (kind_ne_text kind)

/-- No step does away with what a later one relies on, not even a step that meets a fault. -/
theorem step (coherent : state.Coherent source) (left : state.rest ≠ []) :
    (state.step strict).1.Coherent source := by
  unfold State.step
  split
  · next text => exact coherent.textStep left text
  · next tag => exact coherent.tagStep left tag
  · exact coherent.commentStep left

end State.Coherent

/-- The states that the lexer comes to. It may go on after a fault. -/
inductive Reachable (strict : Bool) (source : List Char) : State → Prop where
  | start : Reachable strict source (.start source)
  | step {state : State} (reached : Reachable strict source state) (left : state.rest ≠ []) :
      Reachable strict source (state.step strict).1

namespace Reachable

variable {state : State}

theorem coherent (reached : Reachable strict source state) : state.Coherent source := by
  induction reached with
  | start => exact .start source
  | step _ left ih => exact ih.step left

end Reachable

/-- In every state the tokens are in order, and each of them holds what its kind may hold. -/
theorem stream_of_reachable {state : State} (reached : Reachable strict source state) :
    Stream source state.tokens :=
  reached.coherent.stream

/-- The text between the two tags has been emitted and dropped again. -/
theorem stream_of_reachable_dropped :
    let source := "\x7b\x7b a \x7d\x7d\n\x7b\x7b- b |> c -\x7d\x7d d".toList
    let state : State := ⟨22, [' ', 'd'], .text,
      [⟨⟨.filter, ['c']⟩, 16, 20⟩, ⟨⟨.tag, ['b']⟩, 10, 14⟩, ⟨⟨.tag, ['a']⟩, 2, 5⟩], true⟩
    Reachable true source state ∧ Stream source state.tokens := by
  intro source state
  have fourth : Reachable true source
      ((((((((State.start source).step true).1).step true).1).step true).1).step true).1 :=
    (((Reachable.start.step (by decide)).step (by decide +kernel)).step (by decide +kernel)).step
      (by decide +kernel)
  have same : ((((((((State.start source).step true).1).step true).1).step true).1).step true).1 =
      state := by
    decide +kernel
  rw [same] at fourth
  exact ⟨fourth, stream_of_reachable fourth⟩

end Lexer

end TemplateLexer
