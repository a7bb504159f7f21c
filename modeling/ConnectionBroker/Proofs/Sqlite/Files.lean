import ConnectionBroker.Proofs.Mapping.Params
import ConnectionBroker.Sqlite.Files

/-! # Files that opening makes

A text names a file by its path alone, wherever directories are missing. Opening that file leaves
every other file and all directories as they are. The file exists afterwards; if it did not exist
before, it was opened to be created.
-/

namespace ConnectionBroker.Sqlite.Files

variable {files after : Files} {path : Path} {text : Bytes} {access : Access} {file : Nat}

/-! ## The file that a text names -/

/-- Where a name leads, whatever is there. -/
def enter (path : Path) (name : Bytes) : Path :=
  if name.isEmpty || name = here then path
  else if name = parent then path.dropLast
  else path ++ [name]

/-- The path that a text names from the working directory on. -/
def target (files : Files) (text : Bytes) : Path :=
  (names text).foldl enter (files.origin text)

theorem enter_of_resolveStep {name : Bytes} {next : Path}
    (h : files.resolveStep path name = some next) : next = enter path name := by
  unfold resolveStep at h
  unfold enter
  split at h
  · next hhere => rw [if_pos hhere, Option.some.inj h]
  · next hhere =>
      rw [if_neg hhere]
      split at h
      · next hparent => rw [if_pos hparent, Option.some.inj h]
      · next hparent =>
          rw [if_neg hparent]
          simp only at h
          split at h
          · cases h
          · split at h
            · cases h
            · rw [Option.some.inj h]

theorem foldl_enter_of_resolveStep {start : Path} (pieces : List Bytes)
    (h : pieces.foldlM files.resolveStep start = some path) :
    path = pieces.foldl enter start := by
  induction pieces generalizing start with
  | nil => exact (Option.some.inj h).symm
  | cons name pieces ih =>
      rw [List.foldlM_cons] at h
      obtain ⟨next, hnext, hrest⟩ := Option.bind_eq_some_iff.mp h
      rw [List.foldl_cons, ← enter_of_resolveStep hnext]
      exact ih hrest

/-- A database is looked for at the path that its text names. -/
theorem eq_target_of_resolve? (h : files.resolve? text = some path) : path = files.target text :=
  foldl_enter_of_resolveStep (names text) (Option.filter_eq_some_iff.mp h).1

theorem enter_of_walkStep {name : Bytes} {next : Path}
    (h : files.walkStep path name = .ok next) : next = enter path name := by
  unfold walkStep at h
  unfold enter
  split at h
  · cases h
  split at h
  · cases h
  split at h
  · cases h
  split at h
  · next hhere => rw [if_pos hhere, Except.ok.inj h]
  · next hhere =>
      rw [if_neg hhere]
      split at h
      · next hparent => rw [if_pos hparent, Except.ok.inj h]
      · next hparent => rw [if_neg hparent, Except.ok.inj h]

/-- A walk that does not fail leads to the same path. -/
theorem eq_target_of_walk (h : files.walk text = .ok path) : path = files.target text := by
  unfold walk at h
  split at h
  · cases h
  split at h
  · cases h
  · unfold target
    generalize files.origin text = start at h ⊢
    generalize names text = pieces at h ⊢
    induction pieces generalizing start with
    | nil => exact (Except.ok.inj h).symm
    | cons name pieces ih =>
        rw [List.foldlM_cons] at h
        obtain ⟨next, hnext, hrest⟩ := exists_of_bind_eq_ok h
        rw [List.foldl_cons, ← enter_of_walkStep hnext]
        exact ih next hrest

theorem target_congr (h : after.working = files.working) (text : Bytes) :
    after.target text = files.target text := by
  rw [target, target, origin, origin, h]

/-! ## Opening -/

/-- What opening a file for some access leaves. -/
structure OpensAt (before : Files) (path : Path) (access : Access) (after : Files) : Prop where
  isFile_iff : ∀ other, after.isFile other = true ↔ before.isFile other = true ∨ other = path
  created : before.isFile path = true ∨ access = .create
  directories_eq : after.directories = before.directories
  working_eq : after.working = before.working

theorem isFile_iff_mem : files.isFile path = true ↔ path ∈ files.entries.map Prod.fst := by
  rw [isFile, find?, List.lookup_isSome_iff, List.mem_map]
  simp only [beq_iff_eq]
  exact exists_congr fun entry => and_congr_right fun _ => eq_comm

theorem isFile_congr (h : after.entries = files.entries) (path : Path) :
    after.isFile path = files.isFile path := by
  rw [isFile, isFile, find?, find?, h]

theorem isFile_reach (files : Files) (path other : Path) :
    (files.reach path).2.isFile other = true ↔ files.isFile other = true ∨ other = path := by
  unfold reach
  split
  · next hfound =>
      refine ⟨.inl, ?_⟩
      rintro (hfile | rfl)
      · exact hfile
      · simp [isFile, hfound]
  · simp [isFile_iff_mem]

theorem opensAt_reach (h : files.isFile path = true ∨ access = .create) :
    files.OpensAt path access (files.reach path).2 where
  isFile_iff := isFile_reach files path
  created := h
  directories_eq := by
    unfold reach
    split <;> rfl
  working_eq := by
    unfold reach
    split <;> rfl

theorem opensAt_of_openAt (h : files.openAt path access = .file file after) :
    files.OpensAt path access after := by
  unfold openAt at h
  split at h
  · cases h
  split at h
  · split at h <;> cases h
  split at h
  · next hallowed =>
      obtain ⟨-, rfl⟩ := Opened.file.inj h
      refine opensAt_reach ?_
      simp only [Bool.or_eq_true, Bool.and_eq_true, decide_eq_true_eq] at hallowed
      exact hallowed.imp_right And.left
  · cases h

theorem OpensAt.kept (h : files.OpensAt path access after) {other : Path}
    (hfile : files.isFile other = true) : after.isFile other = true :=
  (h.isFile_iff other).mpr (.inl hfile)

/-- The file that was opened exists. -/
theorem OpensAt.isFile (h : files.OpensAt path access after) : after.isFile path = true :=
  (h.isFile_iff path).mpr (.inr rfl)

/-! ## Making directories -/

theorem entries_of_makeOne (h : files.makeOne text = .made after) :
    after.entries = files.entries ∧ after.working = files.working := by
  unfold makeOne at h
  split at h
  · cases h
  split at h
  · cases h
  split at h
  · cases h
  · split at h
    · cases h
    · split at h
      · cases h
      · obtain rfl := Made.made.inj h
        exact ⟨rfl, rfl⟩

/-- Making directories leaves the files as they are. -/
theorem entries_makeFrom (files : Files) (texts : List Bytes) :
    (files.makeFrom texts).2.entries = files.entries ∧
      (files.makeFrom texts).2.working = files.working := by
  induction texts with
  | nil => exact ⟨rfl, rfl⟩
  | cons text above ih =>
      rw [makeFrom]
      split
      · next hmade => exact entries_of_makeOne hmade
      · exact ⟨rfl, rfl⟩
      · exact ⟨rfl, rfl⟩
      · simp only
        split
        · exact ih
        · split
          · next hmade =>
              obtain ⟨hentries, hworking⟩ := entries_of_makeOne hmade
              exact ⟨hentries.trans ih.1, hworking.trans ih.2⟩
          · exact ih
          · exact ih

end ConnectionBroker.Sqlite.Files
