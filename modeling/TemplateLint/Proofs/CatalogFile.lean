import Mathlib
import TemplateLint.Proofs.Commuting
import TemplateLint.Proofs.Printed

/-! # The catalog file

The file of a catalog is written only to add a text, and then it holds the print of the members with
the text. If that print is read back as it was, the segments of the text are taken from then on:
offering any text under them, after whatever other offers, finds the entry and leaves all files as
they are. Whether a print is read back is no open question for members without reals that are not
nested too deeply, since members that were loaded have distinct keys and an insertion keeps them so.
-/

namespace TemplateLint.Catalog

variable {catalog : Catalog} {disk : Disk} {segments : List String} {text : String}
  {members updated : Members}

/-! ## What is read back -/

/-- Members that are loaded are as reading gives them. -/
theorem proper_of_load (loaded : catalog.load disk = .ok members) :
    Json.Proper (.object members) := by
  obtain ⟨content, _, parsed⟩ := load_eq_ok_iff.mp loaded
  obtain ⟨after, taken, _⟩ := Json.readText_eq_ok_iff.mp parsed
  exact (Json.Reader.value_proper Json.Reader.depthLimit).answers _ _ _ taken

/-- Members without reals are read back, if they open no more objects and arrays than reading
allows. -/
theorem readsBack_of_plain (plain : Json.Plain Json.Reader.depthLimit (.object members))
    (proper : Json.Proper (.object members)) : ReadsBack members :=
  Json.readText_pretty (plain.recovers proper 0)

/-! ## One insertion -/

/-- No file changes unless the text is added. -/
theorem insert_unchanged (refused : (catalog.insert segments text disk).1 ≠ .ok .added) :
    (catalog.insert segments text disk).2 = disk := by
  obtain ⟨printed, inserts⟩ := catalog.insert_inserts segments text disk
  generalize catalog.insert segments text disk = answer at *
  cases inserts with
  | refused => rfl
  | existing => rfl
  | added => exact absurd rfl refused

/-- A text is added to the members that are loaded, and they are printed with it. -/
theorem insert_added (accepted : (catalog.insert segments text disk).1 = .ok .added) :
    ∃ members updated, catalog.load disk = .ok members ∧
      members.offer segments text = (.ok .added, updated) ∧
      catalog.update disk segments text = .ok (some updated) ∧
      disk.writeText catalog.path (fileText updated) =
        .ok (catalog.insert segments text disk).2 := by
  obtain ⟨printed, inserts⟩ := catalog.insert_inserts segments text disk
  generalize catalog.insert segments text disk = answer at *
  cases inserts with
  | refused => cases accepted
  | existing => cases accepted
  | @added updated after updatedEq written =>
    obtain ⟨members, loaded, inserted⟩ := load_of_update updatedEq
    exact ⟨members, updated, loaded, Members.offer_of_some inserted, updatedEq, written⟩

/-- Only an insertion that adds a text prints anything. -/
theorem Inserts.of_not_added {printed : List Members}
    {answer : Except CatalogError Insertion × Disk}
    (inserts : catalog.Inserts segments text disk printed answer)
    (refused : answer.1 ≠ .ok .added) : catalog.Inserts segments text disk [] answer := by
  cases inserts with
  | refused error => exact .refused error
  | existing present => exact .existing present
  | added => exact absurd rfl refused

theorem Inserts.length_le_one {printed : List Members}
    {answer : Except CatalogError Insertion × Disk}
    (inserts : catalog.Inserts segments text disk printed answer) : printed.length ≤ 1 := by
  cases inserts <;> simp

/-- An entry that is there is found, and nothing is written. -/
theorem insert_existing (loaded : catalog.load disk = .ok members)
    (present : ((Json.object members).getAt? segments).isSome = true) :
    catalog.insert segments text disk = (.ok .existing, disk) := by
  have inserted : Members.insertAt text segments members = .ok none :=
    Members.insertAt_eq_none_iff.mpr (.inr present)
  have found : catalog.update disk segments text = .ok none := by
    rw [update, loaded]
    simp only [bind, Except.bind, inserted, Except.mapError]
  unfold insert
  rw [found]

/-! ## Later insertions -/

/-- Segments that are taken stay taken, whatever else is offered. -/
theorem insert_after_calls {calls : List Call} {printed : List Members} {later : Disk}
    (loaded : catalog.load disk = .ok members)
    (present : (Json.object members).getAt? segments = some (.string text))
    (run : catalog.Calls disk calls printed later)
    (readsBack : ∀ members ∈ printed, ReadsBack members) (other : String) :
    catalog.insert segments other later = (.ok .existing, later) := by
  obtain ⟨grown, loadedLater, grows⟩ := run.extension loaded readsBack
  refine insert_existing loadedLater ?_
  rw [(grows.leaf_iff _ _ (Json.isLeaf_string text)).mpr (.inl present)]
  rfl

/-- The same text is not added twice. -/
theorem insert_again (readsBack : ∀ updated,
      catalog.update disk segments text = .ok (some updated) → ReadsBack updated) :
    catalog.insert segments text (catalog.insert segments text disk).2 =
      (if (catalog.insert segments text disk).1 = .ok .added then .ok .existing
        else (catalog.insert segments text disk).1, (catalog.insert segments text disk).2) := by
  split_ifs with accepted
  · obtain ⟨members, updated, loaded, offered, updatedEq, written⟩ := insert_added accepted
    obtain ⟨_, _, added, loadedAfter⟩ :=
      load_of_added updatedEq written (readsBack updated updatedEq)
    exact insert_after_calls loadedAfter added.getAt? (.none _) (List.forall_mem_nil _) text
  · rw [insert_unchanged accepted]
    exact Prod.ext rfl (insert_unchanged accepted)

theorem addText_eq (catalog : Catalog) (filePath text : String) (disk : Disk) :
    catalog.addText filePath text disk =
      ((catalog.insert (catalog.segments filePath text) text disk).1.map
          fun _ => Key.written (catalog.segments filePath text),
        (catalog.insert (catalog.segments filePath text) text disk).2) := by
  rw [addText]

/-- A text of a template that is added again gets the answer it got, and no file changes. -/
theorem addText_again {filePath : String} (readsBack : ∀ updated,
      catalog.update disk (catalog.segments filePath text) text = .ok (some updated) →
        ReadsBack updated) :
    catalog.addText filePath text (catalog.addText filePath text disk).2 =
      catalog.addText filePath text disk := by
  simp only [addText_eq, insert_again readsBack]
  split_ifs with accepted
  · rw [accepted]
    rfl
  · rfl

/-- Unless an insertion adds its text, all files are as before. If it does, the file of the catalog,
and no other, has changed: it holds the print of the members that were loaded, with the text. That
print is read back if the members have no reals and are not nested too deeply. If it is, then after
any further insertions, whose prints are read back as well, an insertion of any text under the same
segments finds an entry and leaves all files as they are. To add a text of a template twice gives
the same answer twice, with the same key if it is one, and only the first time can anything be
written. -/
theorem insert_writes_only_added (catalog : Catalog) (disk : Disk) :
    (∀ segments text, (catalog.insert segments text disk).1 ≠ .ok .added →
      (catalog.insert segments text disk).2 = disk) ∧
    (∀ segments text, (catalog.insert segments text disk).1 = .ok .added →
      ∃ members updated, catalog.load disk = .ok members ∧
        members.offer segments text = (.ok .added, updated) ∧
        (catalog.insert segments text disk).2.readText catalog.path = .ok (fileText updated) ∧
        disk.ChangesOnly (catalog.insert segments text disk).2 [catalog.path] ∧
        (Json.Plain Json.Reader.depthLimit (.object updated) → ReadsBack updated) ∧
        (ReadsBack updated → ∀ calls printed later,
          catalog.Calls (catalog.insert segments text disk).2 calls printed later →
          (∀ members ∈ printed, ReadsBack members) →
          ∀ other, catalog.insert segments other later = (.ok .existing, later))) ∧
    ∀ filePath text, (∀ updated, catalog.update disk (catalog.segments filePath text) text =
        .ok (some updated) → ReadsBack updated) →
      catalog.addText filePath text (catalog.addText filePath text disk).2 =
        catalog.addText filePath text disk ∧
      ∃ printed, printed.length ≤ 1 ∧
        catalog.Inserts (catalog.segments filePath text) text disk printed
          (catalog.insert (catalog.segments filePath text) text disk) ∧
        catalog.Inserts (catalog.segments filePath text) text
          (catalog.addText filePath text disk).2 []
          (catalog.insert (catalog.segments filePath text) text
            (catalog.addText filePath text disk).2) := by
  refine ⟨fun segments text => insert_unchanged, fun segments text accepted => ?_,
    fun filePath text readsBack => ⟨addText_again readsBack, ?_⟩⟩
  · obtain ⟨members, updated, loaded, offered, updatedEq, written⟩ := insert_added accepted
    have file := isFile_of_load loaded
    have added : Members.Added text segments members updated := by
      have accepts := Members.added_of_offer (congrArg Prod.fst offered)
      rwa [offered] at accepts
    refine ⟨members, updated, loaded, offered, Disk.readText_writeText file written,
      .writeText file written, fun plain => ?_, fun readsBack calls printed later run others => ?_⟩
    · exact readsBack_of_plain plain (added.proper (proper_of_load loaded))
    · exact insert_after_calls (load_of_written file written readsBack) added.getAt? run others
  · obtain ⟨printed, first⟩ :=
      catalog.insert_inserts (catalog.segments filePath text) text disk
    obtain ⟨_, second⟩ := catalog.insert_inserts (catalog.segments filePath text) text
      (catalog.addText filePath text disk).2
    refine ⟨printed, first.length_le_one, first, second.of_not_added ?_⟩
    rw [addText_eq, insert_again readsBack]
    split_ifs with accepted
    · rintro ⟨⟩
    · exact accepted

namespace Sample

/-- The entries with a text of a template under the object that is there. -/
def named : Members :=
  [("z", .object [("b", .bool true), ("Hi", .string "Hi")]), ("a", .string "x")]

end Sample

/-- The text is added to the entries, and from then on nothing more is written under its segments,
neither after another text was added nor for the text itself. -/
theorem sample_writes_only_added :
    (Sample.catalog.insert ["z", "c"] "T" (Sample.holding Sample.entries)).1 = .ok .added ∧
    (Sample.catalog.insert ["z", "c"] "T" (Sample.holding Sample.entries)).2.readText
      Sample.catalog.path = .ok (fileText Sample.widened) ∧
    Sample.catalog.insert ["z", "c"] "U" (Sample.holding Sample.deepened) =
      (.ok .existing, Sample.holding Sample.deepened) ∧
    (Sample.catalog.insert ["a", "b"] "T" (Sample.holding Sample.entries)).2 =
      Sample.holding Sample.entries ∧
    Sample.catalog.addText "app/z.hbs" "Hi"
        (Sample.catalog.addText "app/z.hbs" "Hi" (Sample.holding Sample.entries)).2 =
      Sample.catalog.addText "app/z.hbs" "Hi" (Sample.holding Sample.entries) := by
  have accepted : (Sample.catalog.insert ["z", "c"] "T" (Sample.holding Sample.entries)).1 =
      .ok .added := by decide +kernel
  have after : (Sample.catalog.insert ["z", "c"] "T" (Sample.holding Sample.entries)).2 =
      Sample.holding Sample.widened := by decide +kernel
  have refused : (Sample.catalog.insert ["a", "b"] "T" (Sample.holding Sample.entries)).1 ≠
      .ok .added := by decide +kernel
  have path : Sample.catalog.segments "app/z.hbs" "Hi" = ["z", "Hi"] := by decide +kernel
  have next : Sample.catalog.Inserts ["n", "m"] "U" (Sample.holding Sample.widened)
      [Sample.deepened] (.ok .added, Sample.holding Sample.deepened) :=
    .added (Sample.update_holding Sample.readsBack_widened rfl)
      (Disk.writeText_of_find (Sample.find_holding Sample.widened) _)
  obtain ⟨unchanged, added, again⟩ :=
    insert_writes_only_added Sample.catalog (Sample.holding Sample.entries)
  obtain ⟨members, updated, loaded, offered, read, -, -, taken⟩ := added _ _ accepted
  obtain rfl : Sample.entries = members :=
    Except.ok.inj ((Sample.load_holding Sample.readsBack_entries).symm.trans loaded)
  obtain rfl : Sample.widened = updated := congrArg Prod.snd offered
  refine ⟨accepted, read, ?_, unchanged _ _ refused, (again _ _ fun updated same => ?_).1⟩
  · rw [after] at taken
    exact taken Sample.readsBack_widened _ _ _ (.call next (.none _))
      (List.forall_mem_singleton.mpr rfl) "U"
  · have inserted : Members.insertAt "Hi" ["z", "Hi"] Sample.entries =
        .ok (some Sample.named) := rfl
    rw [path, Sample.update_holding Sample.readsBack_entries inserted] at same
    obtain rfl := Option.some.inj (Except.ok.inj same)
    rfl

end TemplateLint.Catalog
