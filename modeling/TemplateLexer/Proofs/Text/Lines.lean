import Mathlib.Data.List.Chain
import TemplateLexer.Proofs.Position
import TemplateLexer.Text.Lines

/-! Lines that end at line feeds only, beside the lines that end at every boundary: both begin with
the same lines for as long as no other boundary has text behind it. -/

set_option autoImplicit false

namespace TemplateLexer.Text

def feedLinesFrom (begun : List Char) : List Char → List (List Char)
  | [] => if begun.isEmpty then [] else [begun.reverse]
  | c :: rest =>
    if c = '\n' then (c :: begun).reverse :: feedLinesFrom [] rest
    else feedLinesFrom (c :: begun) rest

/-- The lines of a text as positions count them, each with its line feed. -/
def feedLines (text : List Char) : List (List Char) :=
  feedLinesFrom [] text

variable {begun text : List Char}

theorem feedLinesFrom_of_ne_feed {c : Char} (level : c ≠ '\n') (begun rest : List Char) :
    feedLinesFrom begun (c :: rest) = feedLinesFrom (c :: begun) rest :=
  if_neg level

theorem flatten_feedLinesFrom (begun text : List Char) :
    (feedLinesFrom begun text).flatten = begun.reverse ++ text := by
  fun_induction feedLinesFrom begun text with
  | case1 begun fresh => simp_all
  | case2 begun => simp
  | case3 begun rest ih => simp [ih]
  | case4 begun c rest _ ih => simp [ih]

theorem exists_feedLinesFrom_cons (begun : List Char) (c : Char) (rest : List Char) :
    ∃ more later, feedLinesFrom begun (c :: rest) = (begun.reverse ++ c :: more) :: later := by
  induction rest generalizing begun c with
  | nil => exact ⟨[], [], by simp [feedLinesFrom]⟩
  | cons d rest ih =>
    by_cases feed : c = '\n'
    · exact ⟨[], feedLinesFrom [] (d :: rest), by simp [feedLinesFrom, feed]⟩
    · obtain ⟨more, later, same⟩ := ih (c :: begun) d
      exact ⟨d :: more, later, by simp [feedLinesFrom_of_ne_feed feed, same]⟩

-- The line feeds in front end the earlier lines; what is in front behind them begins the next.
theorem exists_feedLinesFrom_append (level : '\n' ∉ begun) (front back : List Char) :
    ∃ earlier : List (List Char), earlier.length = front.count '\n' ∧
      earlier.flatten ++ lastLine (begun.reverse ++ front) = begun.reverse ++ front ∧
      feedLinesFrom begun (front ++ back) =
        earlier ++ feedLinesFrom (lastLine (begun.reverse ++ front)).reverse back := by
  induction front generalizing begun with
  | nil =>
    have alone : lastLine begun.reverse = begun.reverse :=
      lastLine_eq_self (by simpa using level)
    exact ⟨[], rfl, by simp [alone], by simp [alone]⟩
  | cons c front ih =>
    by_cases feed : c = '\n'
    · subst feed
      obtain ⟨earlier, count, whole, lines⟩ := @ih [] List.not_mem_nil
      refine ⟨(begun.reverse ++ ['\n']) :: earlier, by simp [count], ?_, ?_⟩
      · simpa [lastLine_append_feed] using whole
      · simpa [lastLine_append_feed, feedLinesFrom] using lines
    · obtain ⟨earlier, count, whole, lines⟩ :=
        @ih (c :: begun) (by simp [level, Ne.symm feed])
      simp only [List.reverse_cons, List.append_assoc, List.singleton_append] at whole lines
      exact ⟨earlier, by simp [count, feed], whole,
        by rw [List.cons_append, feedLinesFrom_of_ne_feed feed, lines]⟩

theorem exists_feedLines_append (front back : List Char) :
    ∃ earlier : List (List Char), earlier.length = front.count '\n' ∧
      earlier.flatten ++ lastLine front = front ∧
      feedLines (front ++ back) = earlier ++ feedLinesFrom (lastLine front).reverse back :=
  @exists_feedLinesFrom_append [] List.not_mem_nil front back

structure FeedLineAt (text : List Char) (offset : Nat) (earlier : List (List Char))
    (line : List Char) : Prop where
  counted : ∃ later, feedLines text = earlier ++ line :: later
  starts : earlier.flatten.length ≤ offset
  stops : offset < earlier.flatten.length + line.length

theorem FeedLineAt.isPrefix {offset : Nat} {earlier : List (List Char)} {line : List Char}
    (stands : FeedLineAt text offset earlier line) : (earlier ++ [line]).flatten <+: text := by
  obtain ⟨later, lines⟩ := stands.counted
  refine ⟨later.flatten, ?_⟩
  rw [← List.flatten_append, ← List.append_cons, ← lines]
  exact flatten_feedLinesFrom [] text

/-- Every line boundary with text behind it is a line feed, or the carriage return in front of
one. -/
def BreaksAtFeeds (text : List Char) : Prop :=
  text.IsChain fun c d => isLineBoundary c = true → c = '\n' ∨ c = '\r' ∧ d = '\n'

instance (text : List Char) : Decidable (BreaksAtFeeds text) :=
  inferInstanceAs (Decidable (List.IsChain _ text))

theorem breaksAtFeeds_append {plain : List Char} (level : ∀ c ∈ plain, isLineBoundary c = false)
    (text : List Char) : BreaksAtFeeds (plain ++ text) ↔ BreaksAtFeeds text := by
  induction plain with
  | nil => rfl
  | cons c plain ih =>
    rw [List.forall_mem_cons] at level
    rw [List.cons_append, BreaksAtFeeds, List.isChain_cons, ← BreaksAtFeeds, ih level.2]
    simp [level.1]

theorem breaksAtFeeds_cons_feed (text : List Char) :
    BreaksAtFeeds ('\n' :: text) ↔ BreaksAtFeeds text := by
  simp [BreaksAtFeeds, List.isChain_cons]

theorem breaksAtFeeds_cons_return_feed (text : List Char) :
    BreaksAtFeeds ('\r' :: '\n' :: text) ↔ BreaksAtFeeds text := by
  simp [BreaksAtFeeds, List.isChain_cons]

section Take

variable {line : List Char} {lines others upTo later : List (List Char)}

theorem take_singleton_eq_iff (split : [line] = upTo ++ later) (breaks : BreaksAtFeeds line) :
    [line].take upTo.length = upTo ↔ BreaksAtFeeds upTo.flatten := by
  rcases List.singleton_eq_append_iff.mp split with ⟨rfl, rfl⟩ | ⟨rfl, rfl⟩
  · simp [BreaksAtFeeds]
  · simpa using breaks

-- A first line that ends at a boundary of both kinds can be left out.
theorem take_cons_eq_iff (split : line :: others = upTo ++ later)
    (breaks : ∀ text, BreaksAtFeeds (line ++ text) ↔ BreaksAtFeeds text)
    (rest : ∀ {upTo : List (List Char)}, others = upTo ++ later →
      (lines.take upTo.length = upTo ↔ BreaksAtFeeds upTo.flatten)) :
    (line :: lines).take upTo.length = upTo ↔ BreaksAtFeeds upTo.flatten := by
  cases upTo with
  | nil => simp [BreaksAtFeeds]
  | cons first upTo =>
    obtain ⟨rfl, behind⟩ := List.cons.inj split
    rw [List.flatten_cons, breaks, ← rest behind]
    simp

theorem take_linesFrom_eq_iff (level : ∀ c ∈ begun, isLineBoundary c = false)
    (split : feedLinesFrom begun text = upTo ++ later) :
    (linesFrom begun text).take upTo.length = upTo ↔ BreaksAtFeeds upTo.flatten := by
  have through {begun : List Char} (level : ∀ c ∈ begun, isLineBoundary c = false)
      (text : List Char) : BreaksAtFeeds (begun.reverse ++ text) ↔ BreaksAtFeeds text :=
    breaksAtFeeds_append (by simpa using level) text
  fun_induction linesFrom begun text generalizing upTo with
  | case1 begun fresh =>
    rw [feedLinesFrom, if_pos fresh, List.nil_eq_append_iff] at split
    simp [split.1, BreaksAtFeeds]
  | case2 begun fresh =>
    rw [feedLinesFrom, if_neg fresh] at split
    have breaks := (through level []).mpr List.isChain_nil
    rw [List.append_nil] at breaks
    exact take_singleton_eq_iff split breaks
  | case3 begun rest ih =>
    have first : feedLinesFrom begun ('\r' :: '\n' :: rest) =
        ('\n' :: '\r' :: begun).reverse :: feedLinesFrom [] rest :=
      rfl
    rw [first] at split
    refine take_cons_eq_iff split (fun text => ?_) (ih (List.forall_mem_nil _))
    simp [through level, breaksAtFeeds_cons_return_feed]
  | case4 begun c rest other boundary ih =>
    by_cases feed : c = '\n'
    · subst feed
      rw [feedLinesFrom, if_pos rfl] at split
      refine take_cons_eq_iff split (fun text => ?_) (ih (List.forall_mem_nil _))
      simp [through level, breaksAtFeeds_cons_feed]
    · cases rest with
      | nil =>
        have breaks := (through level [c]).mpr (List.isChain_singleton c)
        rw [feedLinesFrom_of_ne_feed feed, feedLinesFrom, if_neg (by simp)] at split
        exact take_singleton_eq_iff split (by simpa using breaks)
      | cons d rest =>
        -- By line feeds alone the line goes on past the boundary, so both sides fail.
        rw [feedLinesFrom_of_ne_feed feed] at split
        obtain ⟨more, others, first⟩ := exists_feedLinesFrom_cons (c :: begun) d rest
        rw [first] at split
        cases upTo with
        | nil => simp [BreaksAtFeeds]
        | cons line upTo =>
          obtain ⟨rfl, -⟩ := List.cons.inj split
          have breaks : ¬ BreaksAtFeeds (begun.reverse ++ (c :: d :: (more ++ upTo.flatten))) := by
            rw [through level, BreaksAtFeeds, List.isChain_cons_cons]
            rintro ⟨only, -⟩
            rcases only boundary with rfl | ⟨rfl, rfl⟩
            · exact feed rfl
            · exact other rest rfl rfl
          simp [breaks]
  | case5 begun c rest other inside ih =>
    have feed : c ≠ '\n' := by
      rintro rfl
      exact inside rfl
    rw [feedLinesFrom_of_ne_feed feed] at split
    refine ih ?_ split
    simpa [inside] using level

/-- The first lines are the same by every boundary as by line feeds alone just if no other boundary
ends one of them in front of more text. -/
theorem take_lines_eq_iff (split : feedLines text = upTo ++ later) :
    (Text.lines text).take upTo.length = upTo ↔ BreaksAtFeeds upTo.flatten :=
  take_linesFrom_eq_iff (List.forall_mem_nil _) split

end Take

section Ending

variable {c : Char} {line shown : List Char}

structure WithoutEnding (line shown : List Char) : Prop where
  whole : ∃ ending ∈ [[], ['\r'], ['\n'], ['\r', '\n']], line = shown ++ ending
  level : '\n' ∉ shown
  last : shown.getLast? ≠ some '\r'

theorem dropFinal_append_cons {d : Char} (other : d ≠ c) (front back : List Char) :
    dropFinal c (front ++ d :: back) = front ++ d :: dropFinal c back := by
  have stops : (d :: front.reverse).dropWhile (· = c) = d :: front.reverse := by simp [other]
  simp only [dropFinal, List.reverse_append, List.reverse_cons, List.append_assoc,
    List.singleton_append, List.dropWhile_append, stops]
  split
  · next all =>
    rw [List.isEmpty_iff] at all
    simp [all]
  · simp

theorem dropLineEnding_append_cons {d : Char} (solid : d ≠ '\n' ∧ d ≠ '\r') (front back : List Char) :
    dropLineEnding (front ++ d :: back) = front ++ d :: dropLineEnding back := by
  rw [dropLineEnding, dropFinal_append_cons solid.1, dropFinal_append_cons solid.2, dropLineEnding]

theorem dropFinal_eq_rdropWhile (c : Char) (line : List Char) :
    dropFinal c line = line.rdropWhile (· = c) :=
  rfl

theorem dropFinal_eq_self (level : c ∉ line) : dropFinal c line = line := by
  rw [dropFinal_eq_rdropWhile, List.rdropWhile_eq_self_iff]
  intro nonempty same
  exact level (of_decide_eq_true same ▸ List.getLast_mem nonempty)

theorem dropFinal_concat (level : c ∉ line) : dropFinal c (line ++ [c]) = line := by
  have same := dropFinal_eq_self level
  rw [dropFinal_eq_rdropWhile] at same ⊢
  rw [List.rdropWhile_concat, if_pos (decide_eq_true rfl), same]

theorem exists_dropFinal (c : Char) (line : List Char) :
    ∃ n, line = dropFinal c line ++ List.replicate n c ∧ (dropFinal c line).getLast? ≠ some c := by
  have finals : line.rtakeWhile (· = c) = List.replicate (line.rtakeWhile (· = c)).length c := by
    refine List.eq_replicate_iff.mpr ⟨rfl, fun d member => ?_⟩
    simpa using List.mem_rtakeWhile_imp member
  refine ⟨(line.rtakeWhile (· = c)).length, ?_, fun last => ?_⟩
  · rw [← finals]
    exact List.rdropWhile_append_rtakeWhile.symm
  · obtain ⟨nonempty, same⟩ := List.mem_getLast?_eq_getLast last
    exact List.rdropWhile_last_not (· = c) line nonempty (decide_eq_true same.symm)

theorem exists_of_mem_feedLinesFrom (level : '\n' ∉ begun) (member : line ∈ feedLinesFrom begun text) :
    ∃ body, '\n' ∉ body ∧ (line = body ∨ line = body ++ ['\n']) := by
  fun_induction feedLinesFrom begun text with
  | case1 begun fresh => exact absurd member List.not_mem_nil
  | case2 begun fresh =>
    exact ⟨begun.reverse, by simpa using level, .inl (List.mem_singleton.mp member)⟩
  | case3 begun rest ih =>
    rcases List.mem_cons.mp member with rfl | later
    · exact ⟨begun.reverse, by simpa using level, .inr (List.reverse_cons ..)⟩
    · exact ih List.not_mem_nil later
  | case4 begun c rest other ih => exact ih (by simp [level, Ne.symm other]) member

-- Of two carriage returns the first would end a line of its own.
theorem returns_le_one {n : Nat} (breaks : BreaksAtFeeds (line ++ List.replicate n '\r')) :
    n ≤ 1 := by
  by_contra more
  obtain ⟨m, rfl⟩ := Nat.exists_eq_add_of_le' (show 2 ≤ n by omega)
  rw [List.replicate_succ, List.replicate_succ] at breaks
  have only := (List.isChain_cons_cons.mp breaks.right_of_append).1 (by decide)
  revert only
  decide

theorem withoutEnding_dropLineEnding (member : line ∈ feedLines text) (breaks : BreaksAtFeeds line) :
    WithoutEnding line (dropLineEnding line) := by
  obtain ⟨body, level, spelled⟩ := exists_of_mem_feedLinesFrom List.not_mem_nil member
  have same : dropFinal '\n' line = body := by
    rcases spelled with rfl | rfl
    · exact dropFinal_eq_self level
    · exact dropFinal_concat level
  obtain ⟨n, whole, last⟩ := exists_dropFinal '\r' body
  rw [dropLineEnding, same]
  have start : body <+: line := by
    rcases spelled with rfl | rfl
    · exact List.prefix_rfl
    · exact List.prefix_append _ _
  have single : n ≤ 1 := returns_le_one (whole ▸ breaks.prefix start)
  refine ⟨?_, fun feed => level (whole ▸ List.mem_append_left _ feed), last⟩
  rcases spelled with rfl | rfl
  · rcases Nat.le_one_iff_eq_zero_or_eq_one.mp single with rfl | rfl
    · exact ⟨[], by simp, whole⟩
    · exact ⟨['\r'], by simp, whole⟩
  · rcases Nat.le_one_iff_eq_zero_or_eq_one.mp single with rfl | rfl
    · exact ⟨['\n'], by simp, congrArg (· ++ ['\n']) (whole.trans (List.append_nil _))⟩
    · exact ⟨['\r', '\n'], by simp, (congrArg (· ++ ['\n']) whole).trans (List.append_assoc ..)⟩

end Ending

end TemplateLexer.Text
