import TemplateLexer.Proofs.Lexer.Stop
import TemplateLexer.Proofs.Tag.Ending
import TemplateLexer.Proofs.Writer.RoundTrip

/-! Where the code of a tag begins and ends in the source. Nothing is lost between the tokens of a
tag but the markers that part them. At its end two characters are left out, which need not be the
two braces that they are taken for. -/

set_option autoImplicit false

namespace TemplateLexer

/-- The token's code stands between markers: behind the opening braces or a pipe, and in front of
the pipe of the filter after it or of what ends the tag. -/
structure Token.Delimited (source ending : List Char) (after : Option (Token Nat))
    (token : Token Nat) : Prop where
  opens : token.kind = .tag → Text.Closes source ['{', '{'] 0 token.start
  pipe : ∀ next ∈ after, next.kind = .filter →
    next.start = token.stop + 2 ∧ Text.Closes source ['|', '>'] token.start (token.stop + 2)
  ends : (∀ next ∈ after, next.kind ≠ .filter) →
    Text.Closes source ending token.start (token.stop + 2)

def Delimited (source ending : List Char) : List (Token Nat) → Prop
  | [] => True
  | token :: later =>
    (token.kind = .tag ∨ token.kind = .filter → token.Delimited source ending later.head?) ∧
      Delimited source ending later

namespace Delimited

variable {source ending : List Char} {tokens more : List (Token Nat)}

theorem of_solid (solid : ∀ token ∈ tokens, ¬ (token.kind = .tag ∨ token.kind = .filter)) :
    Delimited source ending tokens := by
  induction tokens with
  | nil => exact trivial
  | cons token later ih =>
    exact ⟨fun kind => absurd kind (solid token List.mem_cons_self),
      ih fun other member => solid other (List.mem_cons_of_mem token member)⟩

theorem append (front : Delimited source ending tokens) (back : Delimited source ending more)
    (apart : ∀ next ∈ more.head?, next.kind ≠ .filter) :
    Delimited source ending (tokens ++ more) := by
  induction tokens with
  | nil => exact back
  | cons token later ih =>
    obtain ⟨first, rest⟩ := front
    refine ⟨fun kind => ?_, ih rest⟩
    cases later with
    | nil =>
      have last := first kind
      exact ⟨last.opens, fun next member filter => absurd filter (apart next member),
        fun _ => last.ends nofun⟩
    | cons second others => exact first kind

theorem closedByBraces (delimited : Delimited source ['}', '}'] tokens) :
    ClosedByBraces source tokens := by
  induction tokens with
  | nil => exact trivial
  | cons token later ih =>
    refine ⟨fun kind last => ?_, ih delimited.2⟩
    obtain ⟨back, whole⟩ := ((delimited.1 kind).ends last).2
    have here : source.drop token.stop = ['}', '}'] ++ back := whole.symm
    rw [Text.slice, Nat.add_sub_cancel_left, here]
    rfl

end Delimited

-- The induction is on the cuts, which the tokens of a tag follow one by one.
theorem Tag.Delimits.delimited {source content ending : List Char} {n start : Nat}
    {later : List Nat} {token : Nat → Segment → Token Nat}
    (delimits : Delimits content ending start later) (within : content <+: source.drop n)
    (long : 0 < ending.length) (behind : 1 ≤ start)
    (span : ∀ i segment, (token i segment).start = n + segment.start ∧
      (token i segment).stop = n + segment.stop)
    (opens : ∀ segment, (token 0 segment).kind = .tag →
      Text.Closes source ['{', '{'] 0 (n + start))
    (filters : ∀ i segment, (token (i + 1) segment).kind = .filter) :
    TemplateLexer.Delimited source ending
      ((segments content (start :: later)).mapIdx token) := by
  induction delimits generalizing token with
  | @pipe start cut later mark rest ih =>
    obtain ⟨next, more, rfl⟩ := List.exists_cons_of_ne_nil rest.ne_nil
    have room : start + 2 ≤ cut := mark.1
    let first : Segment := ⟨Text.slice content start (cut - 2), start, cut - 2⟩
    let second : Segment := ⟨Text.slice content cut (next - 2), cut, next - 2⟩
    have begins : (token 0 first).start = n + start := (span 0 first).1
    have stops : (token 0 first).stop + 2 = n + cut := by
      rw [(span 0 first).2]
      simp only [first]
      omega
    have onward : (token 1 second).start = n + cut := (span 1 second).1
    have rest := @ih (fun i => token (i + 1)) (by omega) (fun i => span (i + 1))
      (fun segment tag => absurd (tag.symm.trans (filters 0 segment)) (by decide))
      fun i => filters (i + 1)
    have after : ((segments content (cut :: next :: more)).mapIdx fun i => token (i + 1)).head? =
        some (token 1 second) := by
      rw [segments, List.mapIdx_cons]
      rfl
    rw [segments, List.mapIdx_cons]
    refine ⟨fun _ => ⟨fun tag => begins ▸ opens first tag, ?_, fun last => ?_⟩, rest⟩
    · intro _ member _
      rw [after] at member
      cases member
      exact ⟨onward.trans stops.symm, begins ▸ stops ▸ mark.of_isPrefix within⟩
    · exact absurd (filters 0 second) (last (token 1 second) after)
  | @last start cut mark =>
    have room := mark.1
    let only : Segment := ⟨Text.slice content start (cut - 2), start, cut - 2⟩
    have begins : (token 0 only).start = n + start := (span 0 only).1
    have stops : (token 0 only).stop + 2 = n + cut := by
      rw [(span 0 only).2]
      simp only [only]
      omega
    refine ⟨fun _ => ⟨fun tag => begins ▸ opens only tag, ?_,
      fun _ => begins ▸ stops ▸ mark.of_isPrefix within⟩, trivial⟩
    intro _ member
    cases member

namespace Region

variable {strict : Bool} {region : Region} {source ending : List Char}

def Parted (ending : List Char) (region : Region) : Prop :=
  ∀ cuts, region.shape = .tag cuts →
    ∃ later, cuts = 2 :: later ∧ Tag.Delimits region.content ending 2 later

theorem delimited_tokens {start : Nat} {before after : Option Region}
    (built : region.shape = .text ∨ ∃ rest, ['{', '{'] <+: rest ∧ opening strict rest = .ok region)
    (parted : region.Parted ending) (long : 0 < ending.length)
    (within : region.content <+: source.drop start) :
    Delimited source ending (region.tokens start before after) := by
  cases shape : region.shape with
  | tag cuts =>
    obtain ⟨later, rfl, delimits⟩ := parted cuts shape
    rcases built with plain | ⟨rest, braces, opened⟩
    · exact nomatch plain.symm.trans shape
    · have opens : Text.Closes source ['{', '{'] 0 (start + 2) :=
        ⟨Nat.le_add_left 2 start, (braces_content braces opened).trans within⟩
      have split : region.segments = Tag.segments region.content (2 :: later) := by
        simp only [segments, shape]
      simp only [tokens, shape, split]
      exact delimits.delimited within long (by decide) (fun i segment => ⟨rfl, rfl⟩)
        (fun _ _ => opens) fun i segment => rfl
  | text =>
    refine .of_solid fun token member => ?_
    simp only [tokens, shape, List.mem_ite_nil_left, List.mem_singleton] at member
    obtain ⟨_, rfl⟩ := member
    simp
  | raw block =>
    refine .of_solid fun token member => ?_
    simp only [tokens, shape, List.mem_singleton] at member
    simp [member]
  | comment closed =>
    refine .of_solid fun token member => ?_
    cases closed <;> simp only [tokens, shape, List.mem_singleton] at member <;> simp [member]

/-- If its tags are parted at their markers, the code of all tags of a source stands between them. -/
theorem delimited_emit {start : Nat} {before : Option Region} {regions : List Region}
    (built : ∀ region ∈ regions, region.shape = .text ∨
      ∃ rest, ['{', '{'] <+: rest ∧ opening strict rest = .ok region)
    (parted : ∀ region ∈ regions, region.Parted ending) (long : 0 < ending.length)
    (whole : source.drop start = (regions.map content).flatten) :
    Delimited source ending (emit start before regions) := by
  induction regions generalizing start before with
  | nil => exact trivial
  | cons region later ih =>
    rw [List.map_cons, List.flatten_cons] at whole
    have behind : source.drop (start + region.content.length) = (later.map content).flatten := by
      rw [← List.drop_drop, whole, List.drop_left]
    refine (delimited_tokens (built region List.mem_cons_self) (parted region List.mem_cons_self)
      long ⟨_, whole.symm⟩).append ?_ fun next => head?_emit
    exact ih (fun other member => built other (List.mem_cons_of_mem region member))
      (fun other member => parted other (List.mem_cons_of_mem region member)) behind

theorem cuts?_content {text : List Char} {cuts : List Nat} (braces : ['{', '{'] <+: text)
    (opened : opening strict text = .ok region) (shape : region.shape = .tag cuts) :
    Tag.cuts? region.content = some cuts ∧ cuts.getLastD 0 = region.content.length := by
  obtain ⟨inside, rfl⟩ := braces
  rcases opening_eq_ok_iff.mp opened with
    ⟨_, _, rfl⟩ | ⟨_, _, _, _, rfl⟩ | ⟨_, _, _, _, rfl⟩ | ⟨cuts, _, _, ended, rfl⟩
  · exact nomatch shape
  · exact nomatch shape
  · exact nomatch shape
  · cases shape
    have room : cuts.getLastD 0 ≤ (['{', '{'] ++ inside).length := (Tag.bounds_of_cuts? ended).1
    refine ⟨Tag.cuts?_take ended, ?_⟩
    rw [List.length_take, Nat.min_eq_left room]

/-- Both brackets that a tag began with are open up to the two characters at its end. -/
def EndsAtOnce (region : Region) : Prop :=
  ∀ cuts, region.shape = .tag cuts → Tag.OpenToTheEnd region.content region.content.length

theorem parted_of_opening {text : List Char} (braces : ['{', '{'] <+: text)
    (opened : opening strict text = .ok region) :
    region.Parted ['}'] ∧ (region.EndsAtOnce → region.Parted ['}', '}']) := by
  have delimits (cuts : List Nat) (shape : region.shape = .tag cuts) :
      ∃ later, cuts = 2 :: later ∧ Tag.Delimits region.content ['}'] 2 later ∧
        (Tag.Delimits region.content ['}', '}'] 2 later ↔
          Tag.OpenToTheEnd region.content region.content.length) := by
    obtain ⟨ended, length⟩ := cuts?_content braces opened shape
    rw [← length]
    simpa using @Tag.delimits_of_cuts? cuts region.content 0 (braces_content braces opened) ended
  refine ⟨fun cuts shape => ?_, fun ends cuts shape => ?_⟩
  · obtain ⟨later, same, always, _⟩ := delimits cuts shape
    exact ⟨later, same, always⟩
  · obtain ⟨later, same, _, adjacent⟩ := delimits cuts shape
    exact ⟨later, same, adjacent.mpr (ends cuts shape)⟩

theorem endsAtOnce_of_closed {text : List Char} (braces : ['{', '{'] <+: text)
    (opened : opening strict text = .ok region)
    (closed : ∀ cuts, region.shape = .tag cuts → ['}', '}'] <:+ region.content) :
    region.EndsAtOnce := by
  intro cuts shape
  obtain ⟨ended, length⟩ := cuts?_content braces opened shape
  rw [← length, ← Tag.adjacent_iff_openToTheEnd ended, length]
  obtain ⟨front, whole⟩ := closed cuts shape
  rw [← whole]
  simp

end Region

theorem Tag.delimits_of_readAt {source : List Char} {start : Nat} {cuts : List Int}
    (braces : ['{', '{'] <+: source.drop start) (closed : readAt source start = .closed cuts) :
    ∃ later, cuts = ((start + 2) :: later).map Int.ofNat ∧
      Delimits source ['}'] (start + 2) later ∧
      (Delimits source ['}', '}'] (start + 2) later ↔
        OpenToTheEnd (source.drop start) (later.getLastD 0 - start)) := by
  have ahead : Text.readingFrom? source start = some (source.drop start) :=
    if_pos (Int.natCast_nonneg start)
  cases ended : cuts? (source.drop start) with
  | none => simp [readAt, ahead, ended] at closed
  | some offsets =>
    obtain ⟨later, rfl, delimits, adjacent⟩ := delimits_of_cuts? braces ended
    refine ⟨later.map (start + ·), ?_, delimits, ?_⟩
    · simp only [readAt, ahead, ended, Reading.closed.injEq] at closed
      rw [← closed]
      simp
    · obtain ⟨front, last, rfl⟩ : ∃ front last, later = front ++ [last] :=
        ⟨_, _, (List.dropLast_concat_getLast (by simpa using delimits.ne_nil)).symm⟩
      rw [adjacent, ← List.cons_append, List.getLastD_concat]
      simp

/-- The cuts of a tag stand behind its opening braces, behind its pipes, and behind the brace that
ends it, and the tokens of a tag lie between them. The two characters that are left out at its end
are braces exactly if both brackets that the tag began with are open up to there. -/
theorem delimits_and_delimited (source : List Char) :
    (∀ (start : Nat) (cuts : List Int), ['{', '{'] <+: source.drop start →
      Tag.readAt source start = .closed cuts →
      ∃ later, cuts = ((start + 2) :: later).map Int.ofNat ∧
        Tag.Delimits source ['}'] (start + 2) later ∧
        (Tag.Delimits source ['}', '}'] (start + 2) later ↔
          Tag.OpenToTheEnd (source.drop start) (later.getLastD 0 - start))) ∧
    ∀ (strict : Bool) (tokens : List (Token Nat)), tokenize strict source = .ok tokens →
      Delimited source ['}'] tokens ∧ (Delimited source ['}', '}'] tokens ↔
        ∀ region ∈ (Region.cut strict source).1, region.EndsAtOnce) := by
  refine ⟨fun start cuts => Tag.delimits_of_readAt, fun strict tokens lexed => ?_⟩
  obtain ⟨whole, rfl⟩ := tokenize_eq_ok_iff.mp lexed
  have parts : source.drop 0 = ((Region.cut strict source).1.map Region.content).flatten := by
    rw [List.drop_zero, Region.flatten_cut whole]
  have built := fun region => @Region.opening_of_mem_cut strict source region
  have between (ending : List Char) (long : 0 < ending.length)
      (parted : ∀ region ∈ (Region.cut strict source).1, ∀ rest, ['{', '{'] <+: rest →
        Region.opening strict rest = .ok region → region.Parted ending) :
      Delimited source ending (Region.emit 0 none (Region.cut strict source).1) := by
    refine Region.delimited_emit built (fun region member => ?_) long parts
    rcases built region member with plain | ⟨rest, braces, opened⟩
    · exact fun cuts shape => nomatch plain.symm.trans shape
    · exact parted region member rest braces opened
  refine ⟨?_, fun tight region member => ?_, fun ends => ?_⟩
  · exact between ['}'] (by decide) fun region _ rest braces opened =>
      (Region.parted_of_opening braces opened).1
  · have closed := Region.closed_of_tokens built parts tight.closedByBraces region member
    rcases built region member with plain | ⟨rest, braces, opened⟩
    · exact fun cuts shape => nomatch plain.symm.trans shape
    · exact Region.endsAtOnce_of_closed braces opened closed
  · exact between ['}', '}'] (by decide) fun region member rest braces opened =>
      (Region.parted_of_opening braces opened).2 (ends region member)

/-- With the inner of the two brackets closed in front of it, the pipe reaches into the two characters
that are left out, so that the code of the filter ends before it begins. -/
theorem delimits_and_delimited_reversed :
    let source := "\x7b\x7b\x7d|>\x7d".toList
    let tokens : List (Token Nat) := [⟨⟨.tag, ['}']⟩, 2, 3⟩, ⟨⟨.filter, []⟩, 5, 4⟩]
    ['{', '{'] <+: source.drop 0 ∧ Tag.readAt source 0 = .closed [2, 5, 6] ∧
      tokenize true source = .ok tokens ∧ Tag.Delimits source ['}'] 2 [5, 6] ∧
      ¬ Tag.Delimits source ['}', '}'] 2 [5, 6] ∧ Delimited source ['}'] tokens ∧
      ¬ Delimited source ['}', '}'] tokens := by
  intro source tokens
  have braces : ['{', '{'] <+: source.drop 0 := by decide
  have closed : Tag.readAt source 0 = .closed [2, 5, 6] := by decide
  have lexed : tokenize true source = .ok tokens := by decide +kernel
  obtain ⟨ofCuts, ofTokens⟩ := delimits_and_delimited source
  obtain ⟨later, same, delimits, adjacent⟩ := ofCuts 0 _ braces closed
  have offsets : ([2, 5, 6] : List Nat).map Int.ofNat = (2 :: later).map Int.ofNat := same
  obtain rfl : [5, 6] = later :=
    (List.cons.inj (List.map_injective_iff.mpr (fun _ _ => Int.ofNat.inj) offsets)).2
  have early : ¬ Tag.OpenToTheEnd source 6 := by
    rintro ⟨scan, reached, level⟩
    have here : Tag.Scan.at? source 4 = some ⟨[.bracket], some '|', 4, [5, 2]⟩ := by decide
    cases here.symm.trans reached
    exact nomatch level
  refine ⟨braces, closed, lexed, delimits, fun both => early (adjacent.mp both),
    (ofTokens true tokens lexed).1, fun both => ?_⟩
  have room : 5 + 2 ≤ 4 + 2 := ((both.2.1 (.inr rfl)).ends nofun).1
  omega

/-- A tag can end behind a single brace. -/
theorem not_forall_delimits :
    ¬ ∀ (source : List Char) (start : Nat) (later : List Nat), ['{', '{'] <+: source.drop start →
      Tag.readAt source start = .closed (((start + 2) :: later).map Int.ofNat) →
      Tag.Delimits source ['}', '}'] (start + 2) later := by
  intro always
  have delimits := always "\x7b\x7b\x7d|>\x7d".toList 0 [5, 6] (by decide) (by decide)
  cases delimits with
  | pipe _ rest =>
    cases rest with
    | pipe _ rest => exact absurd rfl rest.ne_nil
    | last mark => exact absurd mark.1 (by decide)

end TemplateLexer
