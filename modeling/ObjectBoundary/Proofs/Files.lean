import Mathlib.Data.List.TakeWhile
import ObjectBoundary.Files

/-!
# Reading what was written

After a file has been written under a path, reading that path gives the text. The way to the file is
the same as before: what stands on it are directories, and the file does not take the place of one.
-/

namespace ObjectBoundary.Files

variable {files after : Files} {place directory target : List String} {node : Node}

theorem lookup_filter_ne (nodes : List (List String × Node)) {other : List String}
    (differs : other ≠ place) : (nodes.filter (·.1 ≠ place)).lookup other = nodes.lookup other := by
  induction nodes with
  | nil => rfl
  | cons first rest ih =>
    obtain ⟨key, value⟩ := first
    by_cases same : key = place
    · have unequal : (other == place) = false := by simpa using differs
      simpa [same, List.lookup_cons, unequal] using ih
    · by_cases equal : other = key
      · simp [same, equal]
      · have unequal : (other == key) = false := by simpa using equal
        simpa [same, List.lookup_cons, unequal] using ih

theorem node?_put_self (files : Files) (ne : target ≠ []) (node : Node) :
    (files.put target node).node? target = some node := by
  simp [node?, put, ne]

theorem node?_put_other (files : Files) {other : List String} (differs : other ≠ target)
    (node : Node) : (files.put target node).node? other = files.node? other := by
  have unequal : (other == target) = false := by simpa using differs
  simp only [node?, put, List.lookup_cons, unequal, lookup_filter_ne files.nodes differs]

/-- A way through directories does not depend on a place that is none. -/
theorem enter_put {names : List String} (entered : files.enter place names = .ok directory)
    (free : files.node? target ≠ some .directory) (node : Node) :
    (files.put target node).enter place names = .ok directory := by
  induction names generalizing place with
  | nil => exact entered
  | cons name rest ih =>
    rw [enter] at entered ⊢
    split_ifs at entered ⊢ with stays leaves long
    · exact ih entered
    · exact ih entered
    · split at entered
      · next found =>
        have differs : place ++ [name] ≠ target := by
          rintro rfl
          exact free found
        rw [node?_put_other files differs, found]
        exact ih entered
      · cases entered
      · cases entered

/-- What a write that succeeds does. -/
theorem write_cases {path text : String} (h : files.write path text = .ok after) :
    checkPath path = .ok () ∧ ∃ directory last,
      files.enter (files.start path) (names path).dropLast = .ok directory ∧
      (names path).getLast? = some last ∧ isDirectoryName last = false ∧
      last.utf8ByteSize ≤ longestName ∧ files.node? (directory ++ [last]) ≠ some .directory ∧
      after = files.put (directory ++ [last]) (.file (some text)) := by
  simp only [write, bind, Except.bind] at h
  split at h
  · cases h
  next checked =>
  refine ⟨checked, ?_⟩
  split at h
  · cases h
  next directory entered =>
  split at h
  · cases h
  next last hlast =>
  split at h
  · cases h
  next kept =>
  split at h
  · cases h
  next short =>
  rw [not_or, Nat.not_lt] at kept
  -- As many names as before are all the names.
  have all : ((names path).reverse.dropWhile (· = "")).reverse = names path := by
    have suffix := List.dropWhile_suffix (l := (names path).reverse) (· = "")
    have same := suffix.eq_of_length_le (by simpa using kept.2)
    rw [same, List.reverse_reverse]
  rw [all] at entered hlast
  refine ⟨directory, last, entered, hlast, by simpa using kept.1, Nat.not_lt.mp short, ?_⟩
  split at h
  · cases h
  next free =>
  cases h
  exact ⟨free, rfl⟩

/-- A path gives back the text that was written there. -/
theorem read_of_write {path text : String} (h : files.write path text = .ok after) :
    after.read path = .ok text := by
  obtain ⟨checked, directory, last, entered, hlast, plain, short, free, rfl⟩ := write_cases h
  have start_eq : (files.put (directory ++ [last]) (.file (some text))).start path =
      files.start path := rfl
  have way := enter_put entered free (.file (some text))
  have found := node?_put_self files (List.append_ne_nil_of_right_ne_nil directory
    (List.cons_ne_nil last [])) (.file (some text))
  simp only [read, checked, start_eq, way, hlast, plain, found, bind, Except.bind]
  simp [Nat.not_lt.mpr short, pure, Except.pure]

/-- There are files in which a path has any text. -/
theorem exists_read (text : String) : ∃ files : Files, files.read "tasks.json" = .ok text := by
  have plain : "tasks.json".contains '\x00' = false := by simp
  have checked : checkPath "tasks.json" = .ok () := by
    rw [checkPath, plain]
    rfl
  have written : ∃ files, ({} : Files).write "tasks.json" text = .ok files := by
    simp only [write, checked]
    exact ⟨_, rfl⟩
  obtain ⟨files, written⟩ := written
  exact ⟨files, read_of_write written⟩

end ObjectBoundary.Files
