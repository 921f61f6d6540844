import TemplateLexer.Disk

/-! Files that the program writes. A path leads to the same place before and after, what is read
there is what was written, and nothing else on the disk has changed. -/

set_option autoImplicit false

namespace TemplateLexer.Disk

variable {disk after : Disk} {path : Path} {bytes : List UInt8} {names other : List (List Char)}
  {entry : Entry}

theorem lookup_replace (entries : List (List (List Char) × Entry)) (names other : List (List Char))
    (entry : Entry) :
    (entries.map fun old => if old.1 = names then (names, entry) else old).lookup other =
      if other = names then (entries.lookup names).map fun _ => entry
      else entries.lookup other := by
  induction entries with
  | nil => simp
  | cons old later ih =>
    obtain ⟨place, content⟩ := old
    by_cases here : place = names
    · subst here
      by_cases same : other = place
      · simp [same]
      · have unequal : (other == place) = false := by simpa using same
        simpa [List.lookup_cons, unequal, same] using ih
    · have apart : (names == place) = false := by simpa using Ne.symm here
      by_cases same : other = place
      · subst same
        simp [here]
      · have unequal : (other == place) = false := by simpa using same
        simpa [List.lookup_cons, here, unequal, apart] using ih

theorem lookup_put (disk : Disk) (names other : List (List Char)) (entry : Entry) :
    (disk.put names entry).entries.lookup other =
      if other = names then some entry else disk.entries.lookup other := by
  unfold put
  dsimp only
  split
  · next there =>
    obtain ⟨old, found⟩ := Option.isSome_iff_exists.mp there
    rw [lookup_replace, found, Option.map_some]
  · next missing =>
    have nowhere : disk.entries.lookup names = none := Option.not_isSome_iff_eq_none.mp missing
    rw [List.lookup_append]
    by_cases same : other = names
    · simp [same, nowhere]
    · have unequal : (other == names) = false := by simpa using same
      simp [same, List.lookup_cons, unequal]

def Admits (disk : Disk) (path : Path) : Prop :=
  ∃ names, disk.locate path = .ok (.inside names) ∧
    ∀ stamp, disk.entry? (.inside names) ≠ some ⟨.directory, stamp⟩

theorem admits_of_content (located : disk.locate path = .ok (.inside names))
    (file : ∀ entry ∈ disk.entry? (.inside names), entry.content ≠ .directory) :
    disk.Admits path :=
  ⟨names, located, fun _ directory => file _ directory rfl⟩

def written (disk : Disk) (names : List (List Char)) (bytes : List UInt8) : Disk :=
  { disk.put names ⟨.file bytes, .write (disk.writes + 1)⟩ with writes := disk.writes + 1 }

theorem write_eq_ok_iff : disk.write path bytes = .ok after ↔
    ∃ names, disk.locate path = .ok (.inside names) ∧
      (∀ stamp, disk.entry? (.inside names) ≠ some ⟨.directory, stamp⟩) ∧
      after = disk.written names bytes := by
  unfold write
  cases located : disk.locate path with
  | error fault => simp
  | ok location =>
    cases location with
    | inside names =>
      simp only [Except.ok.injEq, Location.inside.injEq, exists_eq_left']
      split
      · next stamp directory =>
        constructor
        · nofun
        · rintro ⟨other, _⟩
          exact absurd directory (other stamp)
      · next same file =>
        cases same
        constructor
        · rintro ⟨⟩
          exact ⟨file, rfl⟩
        · rintro ⟨_, rfl⟩
          rfl
      · next nowhere => exact absurd rfl (nowhere names)
    | outside => simp [ entry?]
    | unknown => simp [ entry?]

theorem Admits.exists_write (admits : disk.Admits path) (bytes : List UInt8) :
    ∃ after, disk.write path bytes = .ok after := by
  obtain ⟨names, located, other⟩ := admits
  exact ⟨_, write_eq_ok_iff.mpr ⟨names, located, other, rfl⟩⟩

theorem lookup_written (disk : Disk) (names other : List (List Char)) (bytes : List UInt8) :
    (disk.written names bytes).entries.lookup other =
      if other = names then some ⟨.file bytes, .write (disk.writes + 1)⟩
      else disk.entries.lookup other :=
  lookup_put disk names other _

-- The working directory itself is always there.
theorem ne_nil_of_file (file : ∀ stamp, disk.entry? (.inside names) ≠ some ⟨.directory, stamp⟩) :
    names ≠ [] := by
  rintro rfl
  exact file _ rfl

theorem entryAt_written {here : Location} (below : names ≠ []) :
    Disk.entry? (disk.written names bytes) here =
      if here = .inside names then some ⟨.file bytes, .write (disk.writes + 1)⟩
      else disk.entry? here := by
  cases here with
  | inside others =>
    by_cases same : others = names
    · subst same
      simp [ entry?, lookup_written, below]
    · simp [ entry?, lookup_written, same]
  | outside => rfl
  | unknown => rfl

-- The way to a file leads through directories, none of which is replaced by it.
theorem walk_written {here : Location} {parts : List (List Char)}
    (file : ∀ stamp, disk.entry? (.inside names) ≠ some ⟨.directory, stamp⟩)
    (walks : disk.walk here parts = .ok (.inside names)) :
    (disk.written names bytes).walk here parts = .ok (.inside names) := by
  induction parts generalizing here with
  | nil => exact walks
  | cons name parts ih =>
    unfold walk at walks
    split at walks
    · exact nomatch walks
    · exact nomatch walks
    · next stamp directory =>
      have kept : Disk.entry? (disk.written names bytes) here = some ⟨.directory, stamp⟩ := by
        rw [entryAt_written (ne_nil_of_file file), directory]
        rw [if_neg]
        rintro rfl
        exact file stamp directory
      unfold walk
      rw [kept]
      dsimp only
      split at walks
      · exact nomatch walks
      · next short =>
        rw [if_neg short]
        exact ih walks

theorem locate_written (file : ∀ stamp, disk.entry? (.inside names) ≠ some ⟨.directory, stamp⟩)
    (located : disk.locate path = .ok (.inside names)) :
    (disk.written names bytes).locate path = .ok (.inside names) := by
  unfold locate at *
  split at located
  · exact nomatch located
  · next whole =>
    split at located
    · exact nomatch located
    · next short =>
      rw [if_neg whole, if_neg short]
      exact walk_written file located

/-- What is read is what was written. -/
theorem read_write (written : disk.write path bytes = .ok after) : after.read path = .ok bytes := by
  obtain ⟨names, located, file, rfl⟩ := write_eq_ok_iff.mp written
  rw [read, find, locate_written file located]
  simp only [entryAt_written (ne_nil_of_file file), if_true]

theorem exists_read_of_isFile (file : disk.isFile path = .ok true) :
    ∃ bytes, disk.read path = .ok bytes := by
  unfold isFile at file
  split at file
  · next bytes stamp found =>
    refine ⟨bytes, ?_⟩
    rw [read, found]
  · exact nomatch file
  · split at file <;> exact nomatch file

end TemplateLexer.Disk
