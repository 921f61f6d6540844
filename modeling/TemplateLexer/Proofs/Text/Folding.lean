import TemplateLexer.Proofs.Text.Occurrence
import TemplateLexer.Proofs.Text.Trimming
import TemplateLexer.Text.Lines

/-! Text with its line endings folded. The pieces of a text fold one by one unless a line ending
is cut in two between them, and what holds no part of a line ending is found where it was. -/

set_option autoImplicit false

namespace TemplateLexer.Text

variable {text front back rest marker : List Char} {c d : Char} {m n : Nat}

/-- No line ending reaches from the one text into the other. -/
def Uncut (front back : List Char) : Prop :=
  front.getLast? = some '\r' → back.head? ≠ some '\n'

theorem uncut_of_head (other : back.head? ≠ some '\n') : Uncut front back :=
  fun _ => other

theorem uncut_of_last (other : front.getLast? ≠ some '\r') : Uncut front back :=
  fun last => absurd last other

theorem uncut_nil (back : List Char) : Uncut [] back :=
  uncut_of_last (by simp)

theorem Uncut.tail (uncut : Uncut (c :: front) back) : Uncut front back := by
  cases front with
  | nil => exact uncut_nil back
  | cons d front =>
    intro last
    exact uncut (by rwa [List.getLast?_cons_cons])

theorem foldLineEndings_return (other : rest.head? ≠ some '\n') :
    foldLineEndings ('\r' :: rest) = '\n' :: foldLineEndings rest := by
  cases rest with
  | nil => rfl
  | cons d rest =>
    rw [foldLineEndings]
    rintro _ ⟨⟩
    exact other rfl

theorem foldLineEndings_cons (other : c ≠ '\r') :
    foldLineEndings (c :: rest) = c :: foldLineEndings rest := by
  rw [foldLineEndings]
  · rintro _ rfl
    exact absurd rfl other
  · exact other

theorem head?_ne_of_alone (alone : ∀ later, rest = '\n' :: later → False) :
    rest.head? ≠ some '\n' := by
  cases rest with
  | nil => simp
  | cons d rest =>
    rintro ⟨⟩
    exact alone rest rfl

theorem head?_append_ne (other : rest.head? ≠ some '\n')
    (edge : rest = [] → back.head? ≠ some '\n') : (rest ++ back).head? ≠ some '\n' := by
  cases rest with
  | nil => exact edge rfl
  | cons d rest => exact other

theorem head?_take_ne (other : rest.head? ≠ some '\n') (n : Nat) :
    (rest.take n).head? ≠ some '\n' := by
  rw [List.head?_take]
  split
  · simp
  · exact other

theorem foldLineEndings_append (uncut : Uncut front back) :
    foldLineEndings (front ++ back) = foldLineEndings front ++ foldLineEndings back := by
  fun_induction foldLineEndings front with
  | case1 => rfl
  | case2 rest ih => exact congrArg ('\n' :: ·) (ih uncut.tail.tail)
  | case3 rest alone ih =>
    have other := head?_append_ne (head?_ne_of_alone alone) fun nothing =>
      uncut (congrArg (fun rest => ('\r' :: rest).getLast?) nothing)
    rw [List.cons_append, foldLineEndings_return other, ih uncut.tail]
    rfl
  | case4 c rest _ other ih =>
    rw [List.cons_append, foldLineEndings_cons other, ih uncut.tail]
    rfl

theorem length_foldLineEndings_le (front back : List Char) :
    (foldLineEndings front).length ≤ (foldLineEndings (front ++ back)).length := by
  fun_induction foldLineEndings front with
  | case1 => exact Nat.zero_le _
  | case2 rest ih => exact Nat.succ_le_succ ih
  | case3 rest alone ih =>
    by_cases cut : rest = [] ∧ back.head? = some '\n'
    · -- Nothing is left of the line feed that is cut off, but it does not shorten the text either.
      obtain ⟨rfl, feed⟩ := cut
      obtain ⟨later, rfl⟩ := List.head?_eq_some_iff.mp feed
      exact Nat.succ_le_succ (Nat.zero_le _)
    · have other := head?_append_ne (head?_ne_of_alone alone) fun nothing feed =>
        cut ⟨nothing, feed⟩
      rw [List.cons_append, foldLineEndings_return other]
      exact Nat.succ_le_succ ih
  | case4 c rest _ other ih =>
    rw [List.cons_append, foldLineEndings_cons other]
    exact Nat.succ_le_succ ih

theorem foldLineEndings_eq_self (none : '\r' ∉ text) : foldLineEndings text = text := by
  induction text with
  | nil => rfl
  | cons c rest ih =>
    rw [List.mem_cons, not_or] at none
    rw [foldLineEndings_cons (Ne.symm none.1), ih none.2]

@[simp] theorem foldLineEndings_isEmpty (text : List Char) :
    (foldLineEndings text).isEmpty = text.isEmpty := by
  fun_cases foldLineEndings text <;> rfl

def foldReturn (c : Char) : Char :=
  if c = '\r' then '\n' else c

theorem foldReturn_eq_iff (noReturn : d ≠ '\r') (noFeed : d ≠ '\n') :
    foldReturn c = d ↔ c = d := by
  unfold foldReturn
  split
  · next same => simp [same, Ne.symm noReturn, Ne.symm noFeed]
  · rfl

theorem isBlank_foldReturn (c : Char) : isBlank (foldReturn c) = isBlank c := by
  unfold foldReturn
  split
  · next same =>
    rw [same]
    rfl
  · rfl

theorem map_foldReturn_eq_iff {o : Option Char} (noReturn : d ≠ '\r') (noFeed : d ≠ '\n') :
    o.map foldReturn = some d ↔ o = some d := by
  cases o with
  | none => rfl
  | some c => simp [foldReturn_eq_iff noReturn noFeed]

theorem head?_foldLineEndings (text : List Char) :
    (foldLineEndings text).head? = text.head?.map foldReturn := by
  fun_cases foldLineEndings text with
  | case1 => rfl
  | case2 rest => rfl
  | case3 rest alone => rfl
  | case4 c rest _ other => simp [foldReturn, show c ≠ '\r' from other]

theorem getLast?_foldLineEndings (text : List Char) :
    (foldLineEndings text).getLast? = text.getLast?.map foldReturn := by
  fun_induction foldLineEndings text with
  | case1 => rfl
  | case2 rest ih => cases last : rest.getLast? <;> simp [List.getLast?_cons, ih, last, foldReturn]
  | case3 rest alone ih =>
    cases last : rest.getLast? <;> simp [List.getLast?_cons, ih, last, foldReturn]
  | case4 c rest _ other ih =>
    have other : c ≠ '\r' := other
    cases last : rest.getLast? <;> simp [List.getLast?_cons, ih, last, foldReturn, other]

theorem exists_of_mem_foldLineEndings (member : c ∈ foldLineEndings text) :
    ∃ d ∈ text, foldReturn d = c := by
  fun_induction foldLineEndings text with
  | case1 => cases member
  | case2 rest ih =>
    rcases List.mem_cons.mp member with rfl | member
    · exact ⟨'\r', List.mem_cons_self, rfl⟩
    · obtain ⟨d, among, same⟩ := ih member
      exact ⟨d, List.mem_cons_of_mem _ (List.mem_cons_of_mem _ among), same⟩
  | case3 rest _ ih =>
    rcases List.mem_cons.mp member with rfl | member
    · exact ⟨'\r', List.mem_cons_self, rfl⟩
    · obtain ⟨d, among, same⟩ := ih member
      exact ⟨d, List.mem_cons_of_mem _ among, same⟩
  | case4 e rest _ other ih =>
    rcases List.mem_cons.mp member with rfl | member
    · exact ⟨c, List.mem_cons_self, if_neg other⟩
    · obtain ⟨d, among, same⟩ := ih member
      exact ⟨d, List.mem_cons_of_mem _ among, same⟩

/-! ### Blanks -/

theorem blank_foldLineEndings (blank : ∀ c ∈ text, isBlank c = true) :
    ∀ c ∈ foldLineEndings text, isBlank c = true := by
  intro c member
  obtain ⟨d, among, rfl⟩ := exists_of_mem_foldLineEndings member
  rw [isBlank_foldReturn, blank d among]

theorem beginsBlank_foldLineEndings (text : List Char) :
    beginsBlank (foldLineEndings text) = beginsBlank text := by
  rw [beginsBlank, head?_foldLineEndings]
  cases first : text.head? <;> simp [beginsBlank, first, isBlank_foldReturn]

theorem endsBlank_foldLineEndings (text : List Char) :
    endsBlank (foldLineEndings text) = endsBlank text := by
  rw [endsBlank, getLast?_foldLineEndings]
  cases last : text.getLast? <;> simp [endsBlank, last, isBlank_foldReturn]

theorem uncut_of_beginsBlank (solid : beginsBlank back = false) : Uncut front back := by
  apply uncut_of_head
  intro feed
  rw [beginsBlank, feed] at solid
  exact absurd solid (by decide)

theorem uncut_of_endsBlank (solid : endsBlank front = false) : Uncut front back := by
  apply uncut_of_last
  intro last
  rw [endsBlank, last] at solid
  exact absurd solid (by decide)

theorem trimLeft_foldLineEndings (text : List Char) :
    trimLeft (foldLineEndings text) = foldLineEndings (trimLeft text) := by
  obtain ⟨lead, blank, whole⟩ := exists_blanks_trimLeft text
  have solid := beginsBlank_trimLeft text
  have begins : beginsBlank (foldLineEndings (trimLeft text)) = false := by
    rw [beginsBlank_foldLineEndings, solid]
  conv_lhs => rw [whole, foldLineEndings_append (uncut_of_beginsBlank solid), trimLeft,
    List.dropWhile_append_of_pos (blank_foldLineEndings blank)]
  exact trimLeft_eq_self begins

theorem trimRight_foldLineEndings (text : List Char) :
    trimRight (foldLineEndings text) = foldLineEndings (trimRight text) := by
  obtain ⟨tail, blank, whole⟩ := exists_blanks_trimRight text
  have solid := endsBlank_trimRight text
  have ends : endsBlank (foldLineEndings (trimRight text)) = false := by
    rw [endsBlank_foldLineEndings, solid]
  conv_lhs => rw [whole, foldLineEndings_append (uncut_of_endsBlank solid),
    trimRight_eq_rdropWhile, List.rdropWhile, List.reverse_append,
    List.dropWhile_append_of_pos fun c member =>
      blank_foldLineEndings blank c (List.mem_reverse.mp member)]
  exact trimRight_eq_self ends

theorem trim_foldLineEndings (text : List Char) :
    trim (foldLineEndings text) = foldLineEndings (trim text) := by
  rw [trim, trimLeft_foldLineEndings, trimRight_foldLineEndings, trim]

/-! ### Offsets -/

def foldedOffset (text : List Char) (n : Nat) : Nat :=
  (foldLineEndings (text.take n)).length

@[simp] theorem foldedOffset_zero (text : List Char) : foldedOffset text 0 = 0 := by
  rw [foldedOffset, List.take_zero]
  rfl

theorem foldedOffset_cons (other : c ≠ '\r') (n : Nat) :
    foldedOffset (c :: rest) (n + 1) = foldedOffset rest n + 1 := by
  rw [foldedOffset, List.take_succ_cons, foldLineEndings_cons other]
  rfl

theorem foldedOffset_return (other : rest.head? ≠ some '\n') (n : Nat) :
    foldedOffset ('\r' :: rest) (n + 1) = foldedOffset rest n + 1 := by
  rw [foldedOffset, List.take_succ_cons, foldLineEndings_return]
  · rfl
  · exact head?_take_ne other n

theorem foldedOffset_append (front back : List Char) :
    foldedOffset (front ++ back) front.length = (foldLineEndings front).length := by
  rw [foldedOffset, List.take_left]

theorem foldedOffset_of_length_le (within : text.length ≤ n) :
    foldedOffset text n = (foldLineEndings text).length := by
  rw [foldedOffset, List.take_of_length_le within]

theorem foldedOffset_take (within : m ≤ n) : foldedOffset (text.take n) m = foldedOffset text m := by
  rw [foldedOffset, List.take_take, Nat.min_eq_left within, foldedOffset]

theorem foldedOffset_le_of_le (less : m ≤ n) : foldedOffset text m ≤ foldedOffset text n := by
  have split : text.take n = text.take m ++ (text.take n).drop m := by
    conv_lhs => rw [← List.take_append_drop m (text.take n), List.take_take, Nat.min_eq_left less]
  rw [foldedOffset, foldedOffset, split]
  exact length_foldLineEndings_le _ _

variable (uncut : Uncut (text.take n) (text.drop n))
include uncut

theorem take_foldedOffset :
    (foldLineEndings text).take (foldedOffset text n) = foldLineEndings (text.take n) := by
  conv_lhs => rw [← List.take_append_drop n text, foldLineEndings_append uncut,
    List.take_append_drop, foldedOffset, List.take_left]

theorem drop_foldedOffset :
    (foldLineEndings text).drop (foldedOffset text n) = foldLineEndings (text.drop n) := by
  conv_lhs => rw [← List.take_append_drop n text, foldLineEndings_append uncut,
    List.take_append_drop, foldedOffset, List.drop_left]

theorem foldedOffset_add (m : Nat) :
    foldedOffset text (n + m) = foldedOffset text n + foldedOffset (text.drop n) m := by
  have still : Uncut (text.take n) ((text.drop n).take m) :=
    fun last => head?_take_ne (uncut last) m
  rw [foldedOffset, List.take_add, foldLineEndings_append still, List.length_append]
  rfl

omit uncut

theorem slice_foldedOffset (start : Uncut (text.take m) (text.drop m))
    (stop : Uncut (text.take n) (text.drop n)) :
    slice (foldLineEndings text) (foldedOffset text m) (foldedOffset text n) =
      foldLineEndings (slice text m n) := by
  rw [slice, slice, ← List.drop_take, take_foldedOffset stop, ← List.drop_take]
  by_cases ordered : m ≤ n
  · rw [← foldedOffset_take ordered]
    apply drop_foldedOffset
    rw [List.take_take, Nat.min_eq_left ordered, List.drop_take]
    exact fun last => head?_take_ne (start last) _
  · have short : foldedOffset text n ≤ foldedOffset text m := foldedOffset_le_of_le (by omega)
    rw [List.drop_eq_nil_of_le short, List.drop_eq_nil_of_le (by rw [List.length_take]; omega)]
    rfl

/-! ### Search -/

/-- Text without any part of a line ending. -/
def Level (text : List Char) : Prop :=
  ∀ c ∈ text, c ≠ '\r' ∧ c ≠ '\n'

instance (text : List Char) : Decidable (Level text) :=
  List.decidableBAll (fun c => c ≠ '\r' ∧ c ≠ '\n') text

theorem foldLineEndings_level (level : Level text) : foldLineEndings text = text :=
  foldLineEndings_eq_self fun member => (level _ member).1 rfl

theorem Level.uncut_left (level : Level front) : Uncut front back :=
  uncut_of_last fun last => (level _ (List.mem_of_getLast? last)).1 rfl

theorem Level.uncut_of_isPrefix (level : Level marker) (nonempty : marker ≠ [])
    (starts : marker <+: back) : Uncut front back := by
  obtain ⟨c, others, rfl⟩ := List.exists_cons_of_ne_nil nonempty
  obtain ⟨rest, rfl⟩ := starts
  apply uncut_of_head
  rintro ⟨⟩
  exact (level _ List.mem_cons_self).2 rfl

theorem Level.uncut_at (level : Level marker) (nonempty : marker ≠ [])
    (starts : marker <+: text.drop n) : Uncut (text.take n) (text.drop n) :=
  level.uncut_of_isPrefix nonempty starts

theorem Level.uncut_behind (level : Level marker) (nonempty : marker ≠ [])
    (starts : marker <+: text.drop n) :
    Uncut (text.take (n + marker.length)) (text.drop (n + marker.length)) := by
  obtain ⟨back, whole⟩ := starts
  have read : text.take (n + marker.length) = text.take n ++ marker := by
    rw [List.take_add, ← whole, List.take_left]
  rw [Uncut, read, List.getLast?_append_of_ne_nil _ nonempty]
  exact level.uncut_left

theorem Level.foldedOffset_behind (level : Level marker) (starts : marker <+: text.drop n) :
    foldedOffset text (n + marker.length) = foldedOffset text n + marker.length := by
  by_cases empty : marker = []
  · subst empty
    rfl
  · rw [foldedOffset_add (level.uncut_at empty starts)]
    obtain ⟨back, whole⟩ := starts
    rw [← whole, foldedOffset_append, foldLineEndings_level level]

theorem startsWith_foldLineEndings (level : Level marker) :
    startsWith marker (foldLineEndings text) = startsWith marker text := by
  induction marker generalizing text with
  | nil => rfl
  | cons d marker ih =>
    obtain ⟨noReturn, noFeed⟩ := level d List.mem_cons_self
    have later : Level marker := fun c member => level c (List.mem_cons_of_mem d member)
    have neither : (d == '\r') = false ∧ (d == '\n') = false := by simp [noReturn, noFeed]
    fun_cases foldLineEndings text with
    | case1 => rfl
    | case2 rest => simp [startsWith, List.isPrefixOf, neither]
    | case3 rest alone => simp [startsWith, List.isPrefixOf, neither]
    | case4 c rest _ other => exact congrArg ((d == c) && ·) (ih later)

theorem drop_foldLineEndings (level : Level marker) (starts : startsWith marker text = true) :
    (foldLineEndings text).drop marker.length = foldLineEndings (text.drop marker.length) := by
  obtain ⟨rest, rfl⟩ := startsWith_iff.mp starts
  rw [foldLineEndings_append level.uncut_left, foldLineEndings_level level, List.drop_left,
    List.drop_left]

variable {Found : Type} {look : List Char → Option Found} {change : List Char → Found → Found}

theorem first?_cons_of_none (nothing : look (c :: rest) = none) :
    first? look (c :: rest) = (first? look rest).map fun (n, found) => (n + 1, found) := by
  rw [first?_cons, nothing]

/-- A search that passes over line endings finds in the folded text what it finds in the text, where
that lies in the folded text. -/
theorem first?_foldLineEndings (blind : ∀ c rest, foldReturn c = '\n' → look (c :: rest) = none)
    (same : ∀ rest, look (foldLineEndings rest) = (look rest).map (change rest)) :
    first? look (foldLineEndings text) = (first? look text).map fun (n, found) =>
      (foldedOffset text n, change (text.drop n) found) := by
  have passReturn (rest : List Char) : look ('\r' :: rest) = none := blind _ rest rfl
  have passFeed (rest : List Char) : look ('\n' :: rest) = none := blind _ rest rfl
  fun_induction foldLineEndings text with
  | case1 =>
    have here : look [] = (look []).map (change []) := same []
    cases found : look [] with
    | none => simp [first?, firstFrom, found]
    | some found =>
      rw [found] at here
      simp [first?, firstFrom, found, ← Option.some.inj here]
  | case2 rest ih =>
    simp only [first?_cons_of_none (passFeed _), first?_cons_of_none (passReturn _), ih,
      Option.map_map]
    rfl
  | case3 rest alone ih =>
    simp only [first?_cons_of_none (passFeed _), first?_cons_of_none (passReturn _), ih,
      Option.map_map, Function.comp_def, foldedOffset_return (head?_ne_of_alone alone),
      List.drop_succ_cons]
  | case4 c rest _ other ih =>
    have here := same (c :: rest)
    rw [foldLineEndings_cons other] at here
    rw [first?_cons, first?_cons, here, ih]
    cases look (c :: rest) with
    | some found => simp
    | none =>
      simp only [Option.map_none, Option.map_map, Function.comp_def, foldedOffset_cons other,
        List.drop_succ_cons]

theorem indexOf?_foldLineEndings (level : Level marker) (nonempty : marker ≠ [])
    (text : List Char) :
    indexOf? marker (foldLineEndings text) = (indexOf? marker text).map (foldedOffset text) := by
  let look (rest : List Char) : Option Unit := if startsWith marker rest then some () else none
  have blind (c : Char) (rest : List Char) (feed : foldReturn c = '\n') : look (c :: rest) = none := by
    apply if_neg
    intro starts
    obtain ⟨d, others, rfl⟩ := List.exists_cons_of_ne_nil nonempty
    obtain ⟨back, whole⟩ := startsWith_iff.mp starts
    cases whole
    obtain ⟨noReturn, noFeed⟩ := level c List.mem_cons_self
    exact noFeed ((if_neg noReturn).symm.trans feed)
  have same (rest : List Char) : look (foldLineEndings rest) = (look rest).map id := by
    rw [Option.map_id_fun, id_eq]
    exact if_congr (by rw [startsWith_foldLineEndings level]) rfl rfl
  change (first? look (foldLineEndings text)).map Prod.fst = ((first? look text).map Prod.fst).map _
  rw [first?_foldLineEndings blind same, Option.map_map, Option.map_map]
  rfl

end TemplateLexer.Text
