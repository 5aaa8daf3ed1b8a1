import Mathlib
import TemplateLint.Proofs.Texts

/-! # Insertions lose nothing

Texts are offered to a catalog one after another, under any keys, and each of them may be added, be
there already or be refused. Whatever the answers, the catalog in the end extends the catalog at the
start: what is no object stays as it is, an object keeps its keys in their order in front of new
ones, and the only values that came are the texts of the calls that added them. Extensions compose,
so it is enough to look at one insertion. What was printed for the file must be read back as it was.
-/

namespace TemplateLint

/-- A value that is no object. -/
def Json.IsLeaf (value : Json) : Prop := ∀ members, value ≠ .object members

namespace Members

/-- How members differ from earlier ones after texts were added under keys. -/
structure Extends (members later : Members) (added : List (List String × String)) : Prop where
  /-- What is no object was there before or is one of the texts. -/
  leaf_iff : ∀ path value, value.IsLeaf → ((Json.object later).getAt? path = some value ↔
    (Json.object members).getAt? path = some value ∨
      ∃ text, (path, text) ∈ added ∧ value = .string text)
  /-- An object stays an object and keeps its keys in front. -/
  objects : ∀ path inner, (Json.object members).getAt? path = some (.object inner) →
    ∃ grown, (Json.object later).getAt? path = some (.object grown) ∧
      inner.map Prod.fst <+: grown.map Prod.fst
  /-- The texts are under new keys. -/
  fresh : ∀ path text, (path, text) ∈ added → (Json.object members).getAt? path = none

/-! ## One insertion -/

namespace Added

variable {text : String} {keys : List String} {members updated : Members}

/-- There is nothing under the keys before. -/
theorem fresh (added : Added text keys members updated) :
    (Json.object members).getAt? keys = none := by
  induction added with
  | last fresh => rw [Json.getAt?_object_cons, fresh, Option.bind_none]
  | beside fresh => rw [Json.getAt?_object_cons, fresh, Option.bind_none]
  | inside present _ ih => rw [Json.getAt?_object_cons, present, Option.bind_some, ih]

theorem leaf_iff (added : Added text keys members updated) {path : List String} {value : Json}
    (leaf : value.IsLeaf) :
    (Json.object updated).getAt? path = some value ↔
      (Json.object members).getAt? path = some value ∨ path = keys ∧ value = .string text := by
  constructor
  · intro found
    rcases added.getAt?_cases found with old | new | ⟨_, inner, _, _, node⟩
    · exact .inl old
    · exact .inr new
    · exact absurd node (leaf inner)
  · rintro (old | ⟨rfl, rfl⟩)
    · obtain ⟨later, found, rfl | ⟨inner, _, node, _⟩⟩ := added.kept old
      · exact found
      · exact absurd node (leaf inner)
    · exact added.getAt?

private theorem object_beside {key : String} {value : Json} (fresh : get? members key = none)
    {path : List String} {inner : Members}
    (node : (Json.object members).getAt? path = some (.object inner)) :
    ∃ grown, (Json.object (members ++ [(key, value)])).getAt? path = some (.object grown) ∧
      inner.map Prod.fst <+: grown.map Prod.fst := by
  cases path with
  | nil =>
    obtain rfl : members = inner := Json.object.inj (Option.some.inj node)
    exact ⟨_, rfl, by rw [List.map_append]; exact List.prefix_append ..⟩
  | cons first rest =>
    have other : first ≠ key := by
      rintro rfl
      simp [Json.getAt?_object_cons, fresh] at node
    refine ⟨inner, ?_, List.prefix_refl _⟩
    rwa [Json.getAt?_object_cons, get?_append_member _ _ _ _ fresh, if_neg other]

/-- Every object keeps its keys in front, by induction along the keys of the text. -/
theorem object (added : Added text keys members updated) {path : List String} {inner : Members}
    (node : (Json.object members).getAt? path = some (.object inner)) :
    ∃ grown, (Json.object updated).getAt? path = some (.object grown) ∧
      inner.map Prod.fst <+: grown.map Prod.fst := by
  induction added generalizing path with
  | last fresh => exact object_beside fresh node
  | beside fresh => exact object_beside fresh node
  | @inside key keys members within updated present _ ih =>
    have among : key ∈ members.map Prod.fst := List.mem_map_of_mem (mem_of_get? present)
    cases path with
    | nil =>
      obtain rfl : members = inner := Json.object.inj (Option.some.inj node)
      exact ⟨_, rfl, by rw [map_fst_assign among]⟩
    | cons first rest =>
      rw [Json.getAt?_object_cons] at node
      by_cases same : first = key
      · rw [same, present, Option.bind_some] at node
        obtain ⟨grown, found, front⟩ := ih node
        refine ⟨grown, ?_, front⟩
        rwa [Json.getAt?_object_cons, get?_assign, if_pos same, Option.bind_some]
      · refine ⟨inner, ?_, List.prefix_refl _⟩
        rwa [Json.getAt?_object_cons, get?_assign, if_neg same]

theorem extension (added : Added text keys members updated) :
    members.Extends updated [(keys, text)] where
  leaf_iff path value leaf := by
    rw [added.leaf_iff leaf]
    simp
  objects _ _ := added.object
  fresh := by
    rintro path other among
    obtain ⟨rfl, rfl⟩ := Prod.mk.inj (List.mem_singleton.mp among)
    exact added.fresh

end Added

namespace Extends

variable {members middle later : Members} {added more : List (List String × String)}

theorem refl (members : Members) : members.Extends members [] where
  leaf_iff := by simp
  objects path inner node := ⟨inner, node, List.prefix_refl _⟩
  fresh := by simp

/-- What is missing later was missing before. -/
theorem getAt?_eq_none (grows : members.Extends later added) {path : List String}
    (missing : (Json.object later).getAt? path = none) :
    (Json.object members).getAt? path = none := by
  cases found : (Json.object members).getAt? path with
  | none => rfl
  | some value =>
    exfalso
    by_cases leaf : value.IsLeaf
    · have kept := (grows.leaf_iff path value leaf).mpr (.inl found)
      cases missing.symm.trans kept
    · obtain ⟨inner, rfl⟩ := not_forall_not.mp leaf
      obtain ⟨grown, kept, _⟩ := grows.objects path inner found
      cases missing.symm.trans kept

theorem trans (first : members.Extends middle added) (second : middle.Extends later more) :
    members.Extends later (added ++ more) where
  leaf_iff path value leaf := by
    rw [second.leaf_iff path value leaf, first.leaf_iff path value leaf]
    simp only [List.mem_append, or_and_right, exists_or, or_assoc]
  objects path inner node := by
    obtain ⟨between, found, front⟩ := first.objects path inner node
    obtain ⟨grown, foundLater, frontLater⟩ := second.objects path between found
    exact ⟨grown, foundLater, front.trans frontLater⟩
  fresh path text among := by
    rcases List.mem_append.mp among with old | new
    · exact first.fresh path text old
    · exact first.getAt?_eq_none (second.fresh path text new)

end Extends

end Members

namespace Catalog

/-! ## A sequence of insertions -/

/-- A text that was offered to a catalog under segments, and the answer. -/
structure Call where
  segments : List String
  text : String
  answer : Except CatalogError Insertion

/-- The segments and the text of a call, if the text was added. -/
def Call.added? (call : Call) : Option (List String × String) :=
  match call.answer with
  | .ok .added => some (call.segments, call.text)
  | _ => none

/-- Texts are offered to a catalog one after another. The catalog may refuse any of them. -/
inductive Calls (catalog : Catalog) : Disk → List Call → List Members → Disk → Prop where
  | none (disk : Disk) : Calls catalog disk [] [] disk
  | call {disk next after : Disk} {segments : List String} {text : String}
      {answer : Except CatalogError Insertion} {printed more : List Members} {calls : List Call}
      (inserts : catalog.Inserts segments text disk printed (answer, next))
      (others : Calls catalog next calls more after) :
      Calls catalog disk (⟨segments, text, answer⟩ :: calls) (printed ++ more) after

/-- Offer texts to a catalog one after another. -/
def insertEach (catalog : Catalog) : List (List String × String) → Disk → List Call × Disk
  | [], disk => ([], disk)
  | (segments, text) :: rest, disk =>
    let (answer, next) := catalog.insert segments text disk
    let (calls, after) := catalog.insertEach rest next
    (⟨segments, text, answer⟩ :: calls, after)

theorem filterMap_added?_cons (call : Call) (calls : List Call) :
    (call :: calls).filterMap Call.added? = call.added?.toList ++ calls.filterMap Call.added? := by
  cases added : call.added? <;> simp [added]

theorem insertEach_calls (catalog : Catalog) (texts : List (List String × String)) (disk : Disk) :
    ∃ printed, catalog.Calls disk (catalog.insertEach texts disk).1 printed
      (catalog.insertEach texts disk).2 := by
  induction texts generalizing disk with
  | nil => exact ⟨[], .none disk⟩
  | cons offer rest ih =>
    obtain ⟨segments, text⟩ := offer
    obtain ⟨printed, inserts⟩ := catalog.insert_inserts segments text disk
    obtain ⟨more, calls⟩ := ih (catalog.insert segments text disk).2
    exact ⟨printed ++ more, .call inserts calls⟩

section

variable {catalog : Catalog} {disk : Disk} {members : Members}

/-- One insertion extends the catalog by its text, if that was added, and by nothing otherwise. -/
theorem Inserts.extension {segments : List String} {text : String}
    {answer : Except CatalogError Insertion} {next : Disk} {printed : List Members}
    (inserts : catalog.Inserts segments text disk printed (answer, next))
    (loaded : catalog.load disk = .ok members)
    (readsBack : ∀ members ∈ printed, ReadsBack members) :
    ∃ later, catalog.load next = .ok later ∧
      members.Extends later (Call.added? ⟨segments, text, answer⟩).toList := by
  cases inserts with
  | refused error => exact ⟨members, loaded, .refl members⟩
  | existing => exact ⟨members, loaded, .refl members⟩
  | @added updated _ updatedEq written =>
    obtain ⟨other, alsoLoaded, added, loadedAfter⟩ :=
      load_of_added updatedEq written (readsBack updated (by simp))
    obtain rfl : members = other := Except.ok.inj (loaded.symm.trans alsoLoaded)
    exact ⟨updated, loadedAfter, added.extension⟩

theorem Calls.extension {calls : List Call} {printed : List Members} {after : Disk}
    (run : catalog.Calls disk calls printed after) (loaded : catalog.load disk = .ok members)
    (readsBack : ∀ members ∈ printed, ReadsBack members) :
    ∃ later, catalog.load after = .ok later ∧
      members.Extends later (calls.filterMap Call.added?) := by
  induction run generalizing members with
  | none disk => exact ⟨members, loaded, .refl members⟩
  | @call disk next after segments text answer printed more calls inserts _ ih =>
    obtain ⟨middle, loadedNext, first⟩ :=
      inserts.extension loaded fun members among => readsBack members (List.mem_append_left _ among)
    obtain ⟨later, loadedAfter, second⟩ :=
      ih loadedNext fun members among => readsBack members (List.mem_append_right _ among)
    rw [filterMap_added?_cons]
    exact ⟨later, loadedAfter, first.trans second⟩

end

/-- A catalog that texts were offered to extends the catalog before by the texts that were added,
whatever the answers. Offering texts one after another is such a sequence of calls. -/
theorem insertions_lose_nothing (catalog : Catalog) (disk : Disk) (members : Members)
    (loaded : catalog.load disk = .ok members) :
    (∀ texts, ∃ printed, catalog.Calls disk (catalog.insertEach texts disk).1 printed
      (catalog.insertEach texts disk).2) ∧
    ∀ calls printed after, catalog.Calls disk calls printed after →
      (∀ members ∈ printed, ReadsBack members) →
      ∃ later, catalog.load after = .ok later ∧
        members.Extends later (calls.filterMap Call.added?) :=
  ⟨fun texts => catalog.insertEach_calls texts disk,
    fun _ _ _ run readsBack => run.extension loaded readsBack⟩

namespace Sample

/-- The catalog of a project. -/
def catalog : Catalog := { root := ⟨"/"⟩ }

/-- A project of nothing but its catalog. -/
def holding (members : Members) : Disk where
  entries :=
    [(["translations"], .directory .full),
     (["translations", "en.json"], .file (.text (fileText members)) .full)]

/-- Entries of which one is no text. -/
def entries : Members := [("z", .object [("b", .bool true)]), ("a", .string "x")]

/-- The entries with a text in the object that is there. -/
def widened : Members :=
  [("z", .object [("b", .bool true), ("c", .string "T")]), ("a", .string "x")]

/-- The entries with a text in a new object, too. -/
def deepened : Members := widened ++ [("n", .object [("m", .string "U")])]

/-- Texts for an object that is there, for a key that is there, for a key below a text and for an
object that is not there yet. -/
def calls : List Call :=
  [⟨["z", "c"], "T", .ok .added⟩, ⟨["a"], "y", .ok .existing⟩,
   ⟨["a", "b"], "y", .error (.conflict catalog.path "a.b" "a")⟩, ⟨["n", "m"], "U", .ok .added⟩]

theorem find_holding (members : Members) :
    (holding members).find catalog.path =
      .ok (.present ["translations", "en.json"] (.file (.text (fileText members)) .full)) := by
  have spelled : Disk.checkSpelling catalog.path = .ok () := by decide +kernel
  have names : Disk.lookups catalog.path = ["translations", "en.json"] := by decide +kernel
  have slashless : Disk.endsInSlash catalog.path = false := by decide +kernel
  unfold Disk.find
  rw [spelled, names, slashless]
  rfl

theorem load_holding {members : Members} (readsBack : ReadsBack members) :
    catalog.load (holding members) = .ok members := by
  refine load_eq_ok_iff.mpr ⟨fileText members, ?_, readsBack⟩
  rw [Disk.readText, find_holding]
  rfl

theorem update_holding {members : Members} (readsBack : ReadsBack members)
    {segments : List String} {text : String} {result : Option Members}
    (inserted : Members.insertAt text segments members = .ok result) :
    catalog.update (holding members) segments text = .ok result := by
  rw [update, load_holding readsBack]
  simp only [bind, Except.bind, inserted, Except.mapError]

theorem readsBack_entries : ReadsBack entries := by rfl

theorem readsBack_widened : ReadsBack widened := by rfl

/-- The sequence in which two of the texts are added. -/
theorem calls_holding :
    catalog.Calls (holding entries) calls [widened, deepened] (holding deepened) := by
  have first : catalog.Inserts ["z", "c"] "T" (holding entries) [widened]
      (.ok .added, holding widened) :=
    .added (update_holding readsBack_entries rfl) (Disk.writeText_of_find (find_holding entries) _)
  have second : catalog.Inserts ["a"] "y" (holding widened) [] (.ok .existing, holding widened) :=
    .existing (update_holding readsBack_widened rfl)
  have last : catalog.Inserts ["n", "m"] "U" (holding widened) [deepened]
      (.ok .added, holding deepened) :=
    .added (update_holding readsBack_widened rfl) (Disk.writeText_of_find (find_holding widened) _)
  exact .call first (.call second (.call (.refused _) (.call last (.none _))))

end Sample

theorem sample_entries_kept :
    Sample.catalog.load (Sample.holding Sample.entries) = .ok Sample.entries ∧
    Sample.catalog.Calls (Sample.holding Sample.entries) Sample.calls
      [Sample.widened, Sample.deepened] (Sample.holding Sample.deepened) ∧
    (∀ members ∈ [Sample.widened, Sample.deepened], ReadsBack members) ∧
    ∃ later, Sample.catalog.load (Sample.holding Sample.deepened) = .ok later ∧
      Sample.entries.Extends later [(["z", "c"], "T"), (["n", "m"], "U")] := by
  have loaded : Sample.catalog.load (Sample.holding Sample.entries) = .ok Sample.entries :=
    Sample.load_holding Sample.readsBack_entries
  have readsBack : ∀ members ∈ [Sample.widened, Sample.deepened], ReadsBack members := by
    intro members among
    rcases List.mem_pair.mp among with rfl | rfl
    · exact Sample.readsBack_widened
    · rfl
  have holds := (insertions_lose_nothing Sample.catalog (Sample.holding Sample.entries)
    Sample.entries loaded).2
  exact ⟨loaded, Sample.calls_holding, readsBack, holds _ _ _ Sample.calls_holding readsBack⟩

end Catalog

end TemplateLint
