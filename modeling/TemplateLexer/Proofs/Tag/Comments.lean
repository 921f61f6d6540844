import TemplateLexer.Proofs.Tag.Ending

/-! Comments in a tag. What stands in a comment makes no pipe and closes no bracket, but slashes in
it are read as they are elsewhere: before a star they open a comment inside the comment, and straight
behind the opening they close it with the star that has opened it. -/

set_option autoImplicit false

namespace TemplateLexer.Tag

/-- How many comments are opened inside a comment, whose end begins with a star. -/
def openings : List Char → Nat
  | [] => 0
  | c :: rest => (if c = '/' ∧ rest.head?.or (some '*') = some '*' then 1 else 0) + openings rest

theorem openings_eq_zero_iff (inside : List Char) :
    openings inside = 0 ↔ ¬ ['/', '*'] <:+: inside ++ ['*'] := by
  induction inside with
  | nil => simp [openings, List.infix_cons_iff]
  | cons c rest ih =>
    have starts : ['/', '*'] <+: c :: (rest ++ ['*']) ↔
        c = '/' ∧ rest.head?.or (some '*') = some '*' := by
      cases rest <;> simp [List.cons_prefix_cons, eq_comm]
    rw [List.cons_append, List.infix_cons_iff, not_or, ← ih, starts, openings]
    split <;> simp_all

/-- The comment ends with its first slash, which stands straight behind the star that opens it. -/
def ClosesEarly : List Char → Prop
  | '/' :: d :: _ => d ≠ '*'
  | _ => False

theorem ClosesEarly.head?_eq {inside : List Char} (early : ClosesEarly inside) :
    inside.head? = some '/' ∧ inside.tail.head?.or (some '*') ≠ some '*' := by
  unfold ClosesEarly at early
  split at early
  · exact ⟨rfl, fun same => early (Option.some.inj same)⟩
  · exact early.elim

theorem closesEarly_iff {c : Char} {rest : List Char} : ClosesEarly (c :: rest) ↔
    c = '/' ∧ rest.head?.or (some '*') ≠ some '*' := by
  constructor
  · intro early
    exact ⟨Option.some.inj early.head?_eq.1, early.head?_eq.2⟩
  · rintro ⟨rfl, other⟩
    cases rest with
    | nil => exact absurd rfl other
    | cons d rest => exact fun star => other (congrArg some star)

theorem Contexts.slash_star {contexts : Contexts} (before : Option Char)
    (outside : contexts.head?.any Context.isQuote = false) :
    contexts.slash before (some '*') = .comment :: contexts := by
  simp [slash, outside]

theorem Contexts.not_quote_bracket {contexts outer : Contexts} (bracket : contexts = .bracket :: outer) :
    contexts.head?.any Context.isQuote = false := by
  rw [bracket]
  rfl

theorem Contexts.slash_comment {outer : Contexts} {before next : Option Char}
    (apart : next ≠ some '*') (solid : before ≠ some '*') :
    slash (.comment :: outer) before next = .comment :: outer := by
  simp [slash, Context.isQuote, apart, solid]

namespace Scan.Leads

variable {scan : Scan} {next : Option Char} {inside : List Char} {outer contexts : Contexts}

theorem slash (reads : scan.contexts.slash scan.before next = contexts) :
    scan.Leads next ['/'] contexts [] :=
  .single (Contexts.isEnd_of_ne (by decide)) (Contexts.isPipe_of_ne (by decide)) reads

-- Behind a star a slash closes the innermost comment, unless a star follows it.
theorem inside_comment (top : scan.contexts = .comment :: outer)
    (unclosed : ¬ ['*', '/'] <:+: inside) (early : scan.before = some '*' → ¬ ClosesEarly inside) :
    scan.Leads (some '*') inside
      (List.replicate (openings inside) .comment ++ scan.contexts) [] := by
  induction inside generalizing scan outer with
  | nil => exact nil scan _
  | cons c rest ih =>
    have later : ¬ ['*', '/'] <:+: rest := fun within =>
      unclosed (within.trans (List.suffix_cons c rest).isInfix)
    have apart : c = '*' → ¬ ClosesEarly rest := by
      rintro rfl early
      obtain ⟨others, rfl⟩ := List.head?_eq_some_iff.mp early.head?_eq.1
      exact unclosed (List.prefix_append ['*', '/'] others).isInfix
    have behind : ∀ contexts, (scan.past [c] contexts []).before = some '*' →
        ¬ ClosesEarly rest := fun _ star => apart (Option.some.inj star)
    by_cases slash : c = '/'
    · subst slash
      by_cases star : rest.head?.or (some '*') = some '*'
      · have opening : scan.Leads (rest.head?.or (some '*')) ['/'] (.comment :: scan.contexts) [] := by
          rw [star]
          refine .slash (Contexts.slash_star _ ?_)
          rw [top]
          rfl
        have whole := opening.append (ih rfl later (behind _))
        have count : openings ('/' :: rest) = openings rest + 1 := by
          simp [openings, star, Nat.add_comm]
        rw [count, List.replicate_succ', List.append_assoc]
        exact whole
      · have solid : scan.before ≠ some '*' := fun before =>
          early before (closesEarly_iff.mpr ⟨rfl, star⟩)
        have first : scan.Leads (rest.head?.or (some '*')) ['/'] scan.contexts [] := by
          refine .slash ?_
          rw [top]
          exact Contexts.slash_comment star solid
        have count : openings ('/' :: rest) = openings rest := by
          rw [openings, if_neg fun both => star both.2, Nat.zero_add]
        rw [count]
        exact first.append (ih top later (behind _))
    · have inert : Inert scan.contexts c := by
        rw [top]
        exact inert_comment outer slash
      have first : scan.Leads (rest.head?.or (some '*')) [c] scan.contexts [] :=
        .single inert.isEnd (inert.isPipe _) (inert.read _ _)
      have count : openings (c :: rest) = openings rest := by
        simp [openings, slash]
      rw [count]
      exact first.append (ih top later (behind _))

theorem star {contexts : Contexts} (top : scan.contexts = .comment :: contexts) :
    scan.Leads next ['*'] scan.contexts [] :=
  .of_inert fun c member => by
    rw [List.mem_singleton.mp member, top]
    exact inert_comment contexts (by decide)

/-- A comment, unless it closes early, leaves open what it opens inside. A star behind it keeps it
open as well, and makes its last slash open another. -/
theorem comment (bracket : scan.contexts = .bracket :: outer) (unclosed : ¬ ['*', '/'] <:+: inside)
    (late : ¬ ClosesEarly inside) :
    scan.Leads next ('/' :: (('*' :: (inside ++ ['*'])) ++ ['/']))
      (List.replicate (openings inside + if next = some '*' then 2 else 0) .comment ++
        scan.contexts) [] := by
  let within : Contexts := .comment :: scan.contexts
  let last : Contexts := .comment :: (List.replicate (openings inside) .comment ++ scan.contexts)
  have reached : List.replicate (openings inside) .comment ++ within = last := by
    rw [List.append_cons, ← List.replicate_succ', List.replicate_succ]
    rfl
  have leads : (scan.past ['/'] within []).Leads (some '/') ('*' :: (inside ++ ['*'])) last [] := by
    have first : (scan.past ['/'] within []).Leads ((inside ++ ['*']).head?.or (some '/')) ['*']
        within [] := star rfl
    have body : ((scan.past ['/'] within []).past ['*'] within []).Leads (some '*') inside last [] :=
      reached ▸ inside_comment rfl unclosed fun _ => late
    exact first.append (body.append (star rfl))
  refine .enclose (Contexts.isEnd_of_ne (by decide)) (fun _ => Contexts.isPipe_of_ne (by decide))
    ?_ leads (Contexts.isEnd_of_ne (by decide)) (Contexts.isPipe_of_ne (by decide)) ?_
  · exact Contexts.slash_star scan.before (Contexts.not_quote_bracket bracket)
  · have star : ('*' :: (inside ++ ['*'])).getLast?.or (some '/') = some '*' := by
      rw [← List.cons_append, List.getLast?_concat]
      rfl
    rw [star]
    split
    · next opens =>
      rw [opens]
      exact (Contexts.slash_star _ rfl).trans rfl
    · next apart => exact Contexts.read_slash_comment apart

/-- A slash straight behind the opening of a comment closes it. -/
theorem comment_early (bracket : scan.contexts = .bracket :: outer) (apart : next ≠ some '*') :
    scan.Leads next ['/', '*', '/'] scan.contexts [] := by
  have leads : (scan.past ['/'] (.comment :: scan.contexts) []).Leads (some '/') ['*']
      (.comment :: scan.contexts) [] := star rfl
  refine .enclose (Contexts.isEnd_of_ne (by decide)) (fun _ => Contexts.isPipe_of_ne (by decide))
    ?_ leads (Contexts.isEnd_of_ne (by decide)) (Contexts.isPipe_of_ne (by decide)) ?_
  · exact Contexts.slash_star scan.before (Contexts.not_quote_bracket bracket)
  · exact Contexts.read_slash_comment apart

end Scan.Leads

/-- Behind `n` characters of the text these contexts are open and these cuts have been made, and the
text behind them is read from there on. -/
def Arrives (text : List Char) (n : Nat) (contexts : Contexts) (cuts : List Nat) : Prop :=
  ∃ scan, Scan.at? text n = some scan ∧ scan.contexts = contexts ∧ scan.cuts = cuts ∧
    cuts? text = scan.finish? (text.drop n)

theorem Scan.Leads.arrives {scan : Scan} {front stretch back : List Char} {contexts : Contexts}
    (reached : Scan.at? (front ++ (stretch ++ back)) front.length = some scan)
    (leads : scan.Leads back.head? stretch contexts []) :
    Arrives (front ++ (stretch ++ back)) (front.length + stretch.length) contexts scan.cuts := by
  have arrived : Scan.at? (front ++ (stretch ++ back)) (front.length + stretch.length) =
      some (scan.past stretch contexts []) := by
    rw [Scan.at?_append, reached]
    exact leads
  exact ⟨_, arrived, rfl, rfl, Scan.cuts?_of_at? arrived⟩

theorem replicate_comment_eq_nil_iff {n : Nat} {contexts : Contexts} :
    List.replicate n Context.comment ++ contexts = contexts ↔ n = 0 := by
  rw [List.append_left_eq_self, List.replicate_eq_nil_iff]

section Comment

variable {front inside back : List Char} {scan : Scan} {outer : Contexts}

theorem arrives_of_closesEarly
    (reached : Scan.at? (front ++ ['/', '*'] ++ inside ++ ['*', '/'] ++ back) front.length =
      some scan)
    (bracket : scan.contexts = .bracket :: outer) (early : ClosesEarly inside) :
    Arrives (front ++ ['/', '*'] ++ inside ++ ['*', '/'] ++ back) (front.length + 3)
      scan.contexts scan.cuts := by
  obtain ⟨others, rfl⟩ := List.head?_eq_some_iff.mp early.head?_eq.1
  have split : front ++ ['/', '*'] ++ '/' :: others ++ ['*', '/'] ++ back =
      front ++ (['/', '*', '/'] ++ (others ++ ['*', '/'] ++ back)) := by
    simp
  have apart : (others ++ ['*', '/'] ++ back).head? ≠ some '*' := by
    have other := early.head?_eq.2
    cases others with
    | nil => exact absurd rfl other
    | cons d others => exact other
  rw [split] at reached ⊢
  exact (Scan.Leads.comment_early bracket apart).arrives reached

theorem arrives_of_not_closesEarly
    (reached : Scan.at? (front ++ ['/', '*'] ++ inside ++ ['*', '/'] ++ back) front.length =
      some scan)
    (bracket : scan.contexts = .bracket :: outer) (unclosed : ¬ ['*', '/'] <:+: inside)
    (late : ¬ ClosesEarly inside) :
    Arrives (front ++ ['/', '*'] ++ inside ++ ['*', '/'] ++ back) (front.length + inside.length + 4)
      (List.replicate (openings inside + if back.head? = some '*' then 2 else 0) .comment ++
        scan.contexts) scan.cuts := by
  have split : front ++ ['/', '*'] ++ inside ++ ['*', '/'] ++ back =
      front ++ ('/' :: (('*' :: (inside ++ ['*'])) ++ ['/']) ++ back) := by
    simp
  have length : front.length + inside.length + 4 =
      front.length + ('/' :: (('*' :: (inside ++ ['*'])) ++ ['/'])).length := by
    simp
    omega
  rw [split] at reached ⊢
  rw [length]
  exact (Scan.Leads.comment bracket unclosed late).arrives reached

/-- A comment that stands in a bracket and ends with the first star and slash behind its opening is
passed over if neither it nor its end opens another comment: the contexts are those before it, and
nothing is cut. Else one comment is left open for each that has been opened, and if a star follows,
two more. But if a slash that no star follows comes straight behind the opening, it closes the
comment, and all that follows is read as code. -/
theorem arrives_comment
    (reached : Scan.at? (front ++ ['/', '*'] ++ inside ++ ['*', '/'] ++ back) front.length =
      some scan)
    (bracket : scan.contexts = .bracket :: outer) (unclosed : ¬ ['*', '/'] <:+: inside) :
    let text := front ++ ['/', '*'] ++ inside ++ ['*', '/'] ++ back
    (ClosesEarly inside → Arrives text (front.length + 3) scan.contexts scan.cuts) ∧
      (¬ ClosesEarly inside →
        Arrives text (front.length + inside.length + 4)
          (List.replicate (openings inside + if back.head? = some '*' then 2 else 0) .comment ++
            scan.contexts) scan.cuts ∧
        (Arrives text (front.length + inside.length + 4) scan.contexts scan.cuts ↔
          ¬ ['/', '*'] <:+: inside ++ ['*'] ∧ back.head? ≠ some '*')) := by
  refine ⟨arrives_of_closesEarly reached bracket, fun late => ?_⟩
  have arrives := arrives_of_not_closesEarly reached bracket unclosed late
  refine ⟨arrives, ?_⟩
  rw [← openings_eq_zero_iff]
  constructor
  · rintro ⟨crossed, here, same, _⟩
    obtain ⟨other, there, contexts, _⟩ := arrives
    obtain rfl : crossed = other := Option.some.inj (here.symm.trans there)
    have none := replicate_comment_eq_nil_iff.mp (contexts.symm.trans same)
    by_cases star : back.head? = some '*'
    · rw [if_pos star] at none
      omega
    · exact ⟨by omega, star⟩
  · rintro ⟨none, apart⟩
    rw [none, if_neg apart] at arrives
    exact arrives

end Comment

/-- The comment that is opened in the comment takes the end that was meant for the outer one. -/
theorem arrives_comment_nested :
    let front := ['{', '{', '|', '>']
    let inside := ['}', '/', '*', 'a']
    let back := ['}', '}']
    let scan : Scan := ⟨[.bracket, .bracket], some '>', 4, [4, 2]⟩
    let text := front ++ ['/', '*'] ++ inside ++ ['*', '/'] ++ back
    Scan.at? text front.length = some scan ∧ ¬ ['*', '/'] <:+: inside ∧ ¬ ClosesEarly inside ∧
      Arrives text 12 [.comment, .bracket, .bracket] [4, 2] ∧
      ¬ Arrives text 12 [.bracket, .bracket] [4, 2] := by
  intro front inside back scan text
  have reached : Scan.at? text front.length = some scan := by decide
  have unclosed : ¬ ['*', '/'] <:+: inside := by decide
  have late : ¬ ClosesEarly inside := fun early => absurd early.head?_eq.1 (by decide)
  obtain ⟨left, iff⟩ := (arrives_comment reached rfl unclosed).2 late
  exact ⟨reached, unclosed, late, left, fun passed => (iff.mp passed).1 (by decide)⟩

/-- Comments are not passed over whatever they hold. -/
theorem not_forall_arrives :
    ¬ ∀ (front inside back : List Char) (scan : Scan) (outer : Contexts),
      Scan.at? (front ++ ['/', '*'] ++ inside ++ ['*', '/'] ++ back) front.length = some scan →
      scan.contexts = .bracket :: outer → ¬ ['*', '/'] <:+: inside →
      Arrives (front ++ ['/', '*'] ++ inside ++ ['*', '/'] ++ back)
        (front.length + inside.length + 4) scan.contexts scan.cuts := by
  intro always
  -- The tag ends behind the first slash of the comment.
  have ended : Scan.at? "\x7b\x7b/*/\x7d\x7d*/".toList 9 = none := by decide
  obtain ⟨crossed, here, _⟩ := always ['{', '{'] ['/', '}', '}'] [] Scan.opened [.bracket]
    (by decide) rfl (by decide)
  exact nomatch ended.symm.trans here

end TemplateLexer.Tag
