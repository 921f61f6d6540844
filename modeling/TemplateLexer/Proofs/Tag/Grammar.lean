import TemplateLexer.Proofs.Tag.Crossing

/-! Tags whose inside follows the grammar of expressions: blocks, strings, literals with
interpolations and comments, nested in any way. The scan of such a tag cuts it at its pipes
and ends it at its own closing braces, whatever stands around it. -/

set_option autoImplicit false

namespace TemplateLexer.Tag

mutual

inductive Body where
  | empty
  | cons (item : Item) (later : Body)

inductive Item where
  | plain (c : Char) (mute : isPlain c = true)
  | slash
  | bar
  | pipe
  | block (inside : Body)
  | single (inside : List Char) (closed : '\'' ∉ inside)
  | double (inside : List Char) (closed : '"' ∉ inside)
  | literal (inside : Literal)
  | comment (inside : List Char) (closed : '/' ∉ inside)

inductive Literal where
  | empty
  | plain (c : Char) (closed : c ≠ '`') (later : Literal)
  | interpolation (inside : Body) (later : Literal)

end

mutual

def Body.text : Body → List Char
  | .empty => []
  | .cons item later => item.text ++ later.text

def Item.text : Item → List Char
  | .plain c _ => [c]
  | .slash => ['/']
  | .bar => ['|']
  | .pipe => ['|', '>']
  | .block inside => '{' :: (inside.text ++ ['}'])
  | .single inside _ => '\'' :: (inside ++ ['\''])
  | .double inside _ => '"' :: (inside ++ ['"'])
  | .literal inside => '`' :: (inside.text ++ ['`'])
  | .comment inside _ => '/' :: '*' :: (inside ++ ['*', '/'])

def Literal.text : Literal → List Char
  | .empty => []
  | .plain c _ later => c :: later.text
  | .interpolation inside later => '$' :: '{' :: (inside.text ++ '}' :: later.text)

end

mutual

def Body.pipes : Body → List Nat
  | .empty => []
  | .cons item later => item.pipes ++ later.pipes.map (item.text.length + ·)

def Item.pipes : Item → List Nat
  | .pipe => [2]
  | .block inside => inside.pipes.map (1 + ·)
  | .literal inside => inside.pipes.map (1 + ·)
  | .plain _ _ | .slash | .bar | .single _ _ | .double _ _ | .comment _ _ => []

def Literal.pipes : Literal → List Nat
  | .empty => []
  | .plain _ _ later => later.pipes.map (1 + ·)
  | .interpolation inside later =>
    inside.pipes.map (2 + ·) ++ later.pipes.map (inside.text.length + 3 + ·)

end

mutual

/-- No item merges with the text after it. A body is followed by a closing brace, with which
nothing merges. -/
def Body.Apart : Body → Prop
  | .empty => True
  | .cons item later => item.Apart later.text.head? ∧ later.Apart

def Item.Apart (next : Option Char) : Item → Prop
  | .slash | .comment _ _ => next ≠ some '*'
  | .bar => next ≠ some '>'
  | .block inside => inside.Apart
  | .literal inside => inside.Apart '`'
  | .plain _ _ | .pipe | .single _ _ | .double _ _ => True

/-- An opening brace straight after a dollar sign belongs to an interpolation. -/
def Literal.Apart (before : Char) : Literal → Prop
  | .empty => True
  | .plain c _ later => (before = '$' → c ≠ '{') ∧ later.Apart c
  | .interpolation inside later => inside.Apart ∧ later.Apart '}'

end

/-- A character that neither makes a comment of a slash before it nor a pipe of a bar. -/
structure Separates (next : Option Char) : Prop where
  slash : next ≠ some '*'
  bar : next ≠ some '>'

theorem Item.Apart.or {item : Item} {ahead next : Option Char} (apart : item.Apart ahead)
    (separates : Separates next) : item.Apart (ahead.or next) := by
  cases ahead with
  | some c => exact apart
  | none =>
    cases item with
    | slash | comment => exact separates.slash
    | bar => exact separates.bar
    | block | literal => exact apart
    | plain | pipe | single | double => exact trivial

theorem separates_brace : Separates (some '}') :=
  ⟨by decide, by decide⟩

-- The induction is on the grammar, over every stack below: what a body leaves on top of the
-- stack is the bracket it began in. No brace of the body can end the tag, since each closes a
-- bracket that was opened above that one.
mutual

theorem Body.leads : ∀ (body : Body) {scan : Scan} {next : Option Char} {outer : Contexts},
    body.Apart → Separates next → scan.contexts = .bracket :: outer →
    scan.Leads next body.text scan.contexts body.pipes
  | .empty, scan, next, _, _, _, _ => .nil scan next
  | .cons item later, _, _, _, apart, separates, top =>
    .append (item.leads (apart.1.or separates) top) (later.leads apart.2 separates top)

theorem Item.leads : ∀ (item : Item) {scan : Scan} {next : Option Char} {outer : Contexts},
    item.Apart next → scan.contexts = .bracket :: outer →
    scan.Leads next item.text scan.contexts item.pipes
  | .plain c mute, _, _, _, _, _ => by
    apply Scan.Leads.of_inert
    intro other member
    rw [List.mem_singleton.mp member]
    exact inert_of_isPlain _ mute
  | .slash, scan, next, outer, apart, top => by
    refine .single (Contexts.isEnd_of_ne (by decide)) (Contexts.isPipe_of_ne (by decide)) ?_
    rw [top]
    exact Contexts.read_slash_bracket apart
  | .bar, scan, _, _, apart, _ =>
    .single (Contexts.isEnd_of_ne (by decide)) (Contexts.isPipe_of_next_ne apart) rfl
  | .pipe, scan, next, outer, _, top => by
    unfold Scan.Leads
    simp [Item.text, Item.pipes, Scan.cross?, Scan.read, Scan.past, Contexts.isEnd,
      Contexts.isPipe, top, Contexts.read, Context.ofQuote?]
  | .block inside, scan, _, outer, apart, top => by
    have within : (scan.past ['{'] (.bracket :: .bracket :: outer) []).Leads (some '}') inside.text
        (.bracket :: .bracket :: outer) inside.pipes := inside.leads apart separates_brace rfl
    refine .enclose (Contexts.isEnd_of_ne (by decide)) (fun _ => Contexts.isPipe_of_ne (by decide))
      ?_ within (Contexts.isEnd_cons_cons _ _ _) (Contexts.isPipe_of_ne (by decide)) ?_
    · rw [top]
      rfl
    · rw [top]
      rfl
  | .single inside closed, _, _, _, _, top =>
    .quoted top rfl (.of_inert fun c member => inert_single _ fun same => closed (same ▸ member))
  | .double inside closed, _, _, _, _, top =>
    .quoted top rfl (.of_inert fun c member => inert_double _ fun same => closed (same ▸ member))
  | .literal inside, _, _, _, apart, top => .quoted top rfl (inside.leads apart rfl rfl)
  | .comment inside closed, scan, next, outer, apart, top => by
    -- The stars belong to the stretch that the slashes enclose.
    have inert : ∀ c ∈ '*' :: (inside ++ ['*']), Inert (.comment :: .bracket :: outer) c := by
      intro c member
      apply inert_comment
      intro same
      subst same
      simp [closed] at member
    have leads : scan.Leads next ('/' :: (('*' :: (inside ++ ['*'])) ++ ['/'])) scan.contexts [] := by
      refine .enclose_inert (Contexts.isEnd_of_ne (by decide))
        (fun _ => Contexts.isPipe_of_ne (by decide)) (by rw [top]; rfl) inert
        (Contexts.isEnd_of_ne (by decide)) (Contexts.isPipe_of_ne (by decide)) ?_
      have star : ('*' :: (inside ++ ['*'])).getLast? = some '*' := by
        rw [← List.cons_append, List.getLast?_concat]
      rw [star, top]
      exact Contexts.read_slash_comment apart
    simpa [Item.text, Item.pipes] using leads

theorem Literal.leads : ∀ (literal : Literal) {scan : Scan} {next : Option Char} {c : Char}
    {outer : Contexts}, literal.Apart c → scan.before = some c →
    scan.contexts = .literal :: outer →
    scan.Leads next literal.text scan.contexts literal.pipes
  | .empty, scan, next, _, _, _, _, _ => .nil scan next
  | .plain d closed later, scan, next, c, outer, apart, last, top => by
    have reads : ∀ next, scan.contexts.read scan.before d next = scan.contexts := by
      intro next
      rw [top, last]
      refine Contexts.read_opaque rfl ?_ nofun fun _ brace dollar => ?_
      · exact fun quote => closed (Context.eq_of_ofQuote? quote rfl)
      · exact apart.1 (Option.some.inj dollar) brace
    have opening : scan.Leads (later.text.head?.or next) [d] scan.contexts [] :=
      .single (by simp [Contexts.isEnd, top]) (by simp [Contexts.isPipe, top]) (reads _)
    exact .append opening (later.leads apart.2 rfl top)
  | .interpolation inside later, scan, next, c, outer, apart, last, top => by
    -- The dollar sign is inert, and the braces are read as a stretch of their own behind it.
    have dollar : scan.Leads (some '{') ['$'] scan.contexts [] :=
      .single (Contexts.isEnd_of_ne (by decide)) (Contexts.isPipe_of_ne (by decide))
        ((inert_of_isPlain _ (by decide)).read _ _)
    have within : ((scan.past ['$'] scan.contexts []).past ['{'] (.bracket :: .literal :: outer)
        []).Leads (some '}') inside.text (.bracket :: .literal :: outer) inside.pipes :=
      inside.leads apart.1 separates_brace rfl
    have braces : (scan.past ['$'] scan.contexts []).Leads (later.text.head?.or next)
        ('{' :: (inside.text ++ ['}'])) scan.contexts (inside.pipes.map (1 + ·)) := by
      refine .enclose (Contexts.isEnd_of_ne (by decide))
        (fun _ => Contexts.isPipe_of_ne (by decide)) ?_ within (Contexts.isEnd_cons_cons _ _ _)
        (Contexts.isPipe_of_ne (by decide)) ?_
      · rw [Scan.contexts_past, top]
        rfl
      · rw [top]
        rfl
    have last : (('{' :: (inside.text ++ ['}'])).getLast?.or (some '$')) = some '}' := by
      rw [← List.cons_append, List.getLast?_concat]
      rfl
    have whole := dollar.append (braces.append (later.leads apart.2 last top))
    -- The three parts count their pipes from their own fronts, the grammar from the dollar sign.
    have pipes : ([] : List Nat) ++ (inside.pipes.map (1 + ·) ++
        later.pipes.map (('{' :: (inside.text ++ ['}'])).length + ·)).map (['$'].length + ·) =
          (Literal.interpolation inside later).pipes := by
      simp only [Literal.pipes, List.nil_append, List.map_append, List.map_map, List.length_cons,
        List.length_append, List.length_nil]
      congr 1 <;> refine List.map_congr_left fun pipe _ => ?_ <;> simp only [Function.comp_apply] <;>
        omega
    rw [pipes] at whole
    simpa [Literal.text] using whole

end

theorem cuts?_body {body : Body} (apart : body.Apart) (back : List Char) :
    cuts? ('{' :: '{' :: (body.text ++ '}' :: '}' :: back)) =
      some (2 :: (body.pipes.map (2 + ·) ++ [body.text.length + 4])) := by
  have leads : Scan.opened.Leads (some '}') body.text [.bracket, .bracket] body.pipes :=
    body.leads apart separates_brace rfl
  rw [cuts?, Scan.finish?_start, leads.finish?, Scan.finish?_close rfl]
  have last : 2 + body.text.length + 2 = body.text.length + 4 := by omega
  simp [Scan.past, Scan.opened, last]

/-- A tag of the grammar is cut just past its opening braces, just past each of its pipes and
just past its closing braces, and nowhere else. -/
theorem readAt_body {body : Body} (apart : body.Apart) (front back : List Char) :
    readAt (front ++ ['{', '{'] ++ body.text ++ ['}', '}'] ++ back) front.length =
      .closed (((front.length + 2) ::
        (body.pipes.map (front.length + 2 + ·) ++ [front.length + body.text.length + 4])).map
          Int.ofNat) := by
  have ahead : Text.readingFrom? (front ++ ['{', '{'] ++ body.text ++ ['}', '}'] ++ back)
      front.length = some ('{' :: '{' :: (body.text ++ '}' :: '}' :: back)) := by
    simp [Text.readingFrom?]
  simp only [readAt, ahead, cuts?_body apart, List.map_cons, List.map_append, List.map_map,
    List.map_nil, Function.comp_def, Int.ofNat_eq_natCast, Int.natCast_add, Int.add_assoc]

def nestedPipes : Body :=
  .cons (.block (.cons .pipe .empty)) (.cons .bar (.cons .slash (.cons .pipe (.cons
    (.literal (.plain '|' (by decide) (.interpolation (.cons .pipe .empty) .empty))) .empty))))

theorem readAt_nestedPipes :
    nestedPipes.Apart ∧
      readAt (['x'] ++ ['{', '{'] ++ "{|>}|/|>`|${|>}`".toList ++ ['}', '}'] ++ ['y']) 1 =
        .closed [3, 6, 11, 17, 21] := by
  have apart : nestedPipes.Apart := by
    simp [nestedPipes, Body.Apart, Item.Apart, Literal.Apart, Body.text, Item.text]
  have written : nestedPipes.text = "{|>}|/|>`|${|>}`".toList := by rfl
  have pipes : nestedPipes.pipes = [3, 8, 14] := by rfl
  have cut := readAt_body apart ['x'] ['y']
  rw [written, pipes] at cut
  exact ⟨apart, cut⟩

end TemplateLexer.Tag
