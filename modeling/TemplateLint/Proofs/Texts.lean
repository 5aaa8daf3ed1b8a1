import Mathlib
import TemplateLint.Proofs.Accounting
import TemplateLint.Proofs.NoDocument
import TemplateLint.Proofs.WriteOrder

/-! # Texts of a catalog

A catalog that a run fills from an empty one is a tree whose leaves are the texts that the run came
upon, each under its own key. An insertion is content with any entry under its key, though, and a key
may lead to an object: one text can be the directory of another. So the entry for a text that was
replaced is the text itself if no other text lies below its key, and an object if one does. Nothing
is assumed about the documents: a run that is pointed at the catalog cannot read it as one.
-/

namespace TemplateLint

theorem Json.getAt?_append (value : Json) (front back : List String) :
    value.getAt? (front ++ back) = (value.getAt? front).bind fun inner => inner.getAt? back := by
  induction front generalizing value with
  | nil => rfl
  | cons key front ih =>
    simp only [List.cons_append, getAt?, ih, Option.bind_assoc]

/-- Nothing lies below a text. -/
theorem Json.getAt?_below_string {value : Json} {keys below : List String} {text : String}
    (leaf : value.getAt? keys = some (.string text)) (some : below ≠ []) :
    value.getAt? (keys ++ below) = none := by
  obtain ⟨key, rest, rfl⟩ := List.exists_cons_of_ne_nil some
  rw [getAt?_append, leaf]
  rfl

/-! ## Insertion into a tree of texts -/

namespace Json.TextTree

variable {depth : Nat} {members : Members} {key : String} {value : Json}

theorem nil (positive : 0 < depth) : TextTree depth (.object []) := by
  obtain ⟨depth, rfl⟩ := Nat.exists_eq_add_one_of_ne_zero (Nat.ne_of_gt positive)
  exact .object List.nodup_nil (by simp)

theorem append (tree : TextTree (depth + 1) (.object members))
    (fresh : Members.get? members key = none) (inner : TextTree depth value) :
    TextTree (depth + 1) (.object (members ++ [(key, value)])) := by
  cases tree with
  | object distinct values =>
    refine .object ?_ ?_
    · rw [List.map_append, List.map_singleton, ← List.concat_eq_append]
      exact distinct.concat (Members.get?_eq_none_iff.mp fresh)
    · intro item among
      rcases List.mem_append.mp among with old | new
      · exact values item old
      · obtain rfl := List.mem_singleton.mp new
        exact inner

theorem assign (tree : TextTree (depth + 1) (.object members))
    (present : key ∈ members.map Prod.fst) (inner : TextTree depth value) :
    TextTree (depth + 1) (.object (Members.assign key value members)) := by
  cases tree with
  | object distinct values =>
    refine .object ?_ ?_
    · rwa [Members.map_fst_assign present]
    · intro item among
      rcases Members.mem_assign among with rfl | old
      · exact inner
      · exact values item old

theorem mono (tree : TextTree depth value) {bound : Nat} (wider : depth ≤ bound) :
    TextTree bound value := by
  induction tree generalizing bound with
  | text depth text => exact .text bound text
  | object distinct _ ih =>
    obtain ⟨bound, rfl⟩ := Nat.exists_eq_add_one_of_ne_zero (Nat.ne_of_gt (Nat.zero_lt_of_lt wider))
    exact .object distinct fun item among => ih item among (Nat.le_of_succ_le_succ wider)

/-- What a tree of texts holds is a tree of texts. -/
theorem of_get? (tree : TextTree (depth + 1) (.object members))
    (present : Members.get? members key = some value) : TextTree depth value := by
  cases tree with
  | object distinct values => exact values _ (Members.mem_of_get? present)

end Json.TextTree

namespace Members.Added

variable {text : String} {keys : List String} {members updated : Members}

theorem keys_ne_nil (added : Added text keys members updated) : keys ≠ [] := by
  cases added <;> simp

/-- A tree of texts stays one when a text is added under no more keys than it may be deep. -/
theorem textTree (added : Added text keys members updated) {depth : Nat}
    (tree : Json.TextTree depth (.object members)) (shallow : keys.length ≤ depth) :
    Json.TextTree depth (.object updated) := by
  induction added generalizing depth with
  | last fresh =>
    cases tree with
    | object distinct values =>
      exact (Json.TextTree.object distinct values).append fresh (.text _ text)
  | beside fresh added ih =>
    cases tree with
    | object distinct values =>
      have inner := Nat.le_of_succ_le_succ shallow
      have positive := Nat.lt_of_lt_of_le (List.length_pos_of_ne_nil added.keys_ne_nil) inner
      exact (Json.TextTree.object distinct values).append fresh (ih (.nil positive) inner)
  | inside present added ih =>
    cases tree with
    | @object depth _ distinct values =>
      have tree := Json.TextTree.object distinct values
      exact tree.assign (List.mem_map_of_mem (mem_of_get? present))
        (ih (tree.of_get? present) (Nat.le_of_succ_le_succ shallow))

/-- What is found under keys after an insertion was there before, or is the text under its keys, or
is an object on the way to it. -/
theorem getAt?_cases (added : Added text keys members updated) {path : List String} {value : Json}
    (found : (Json.object updated).getAt? path = some value) :
    (Json.object members).getAt? path = some value ∨ (path = keys ∧ value = .string text) ∨
      ∃ below inner, below ≠ [] ∧ path ++ below = keys ∧ value = .object inner := by
  cases path with
  | nil => exact .inr (.inr ⟨keys, updated, added.keys_ne_nil, rfl, (Option.some.inj found).symm⟩)
  | cons first rest =>
    induction added generalizing first rest with
    | last fresh =>
      rw [Json.getAt?_object_cons, get?_append_member _ _ _ _ fresh] at found
      split_ifs at found with same
      · cases rest with
        | nil => exact .inr (.inl ⟨by rw [same], (Option.some.inj found).symm⟩)
        | cons => cases found
      · exact .inl found
    | @beside key keys members inner fresh added ih =>
      rw [Json.getAt?_object_cons, get?_append_member _ _ _ _ fresh] at found
      split_ifs at found with same
      · subst same
        cases rest with
        | nil =>
          exact .inr (.inr ⟨keys, inner, added.keys_ne_nil, rfl, (Option.some.inj found).symm⟩)
        | cons next rest =>
          rcases ih next rest found with old | ⟨rfl, leaf⟩ | ⟨below, object, some, rfl, node⟩
          · cases old
          · exact .inr (.inl ⟨rfl, leaf⟩)
          · exact .inr (.inr ⟨below, object, some, rfl, node⟩)
      · exact .inl found
    | @inside key keys members inner updated present added ih =>
      rw [Json.getAt?_object_cons, get?_assign] at found
      split_ifs at found with same
      · subst same
        cases rest with
        | nil =>
          exact .inr (.inr ⟨keys, updated, added.keys_ne_nil, rfl, (Option.some.inj found).symm⟩)
        | cons next rest =>
          rcases ih next rest found with old | ⟨rfl, leaf⟩ | ⟨below, object, some, rfl, node⟩
          · refine .inl ?_
            rw [Json.getAt?_object_cons, present]
            exact old
          · exact .inr (.inl ⟨rfl, leaf⟩)
          · exact .inr (.inr ⟨below, object, some, rfl, node⟩)
      · exact .inl found

end Members.Added

namespace Members

/-! ## Trees that grow by insertions -/

/-- Members that come of adding texts to an empty object, each of them from a source of keys with
their texts. -/
inductive Grown (source : List String → String → Prop) : Members → Prop where
  | empty : Grown source []
  | add {text : String} {keys : List String} {members updated : Members}
      (grown : Grown source members) (known : source keys text)
      (added : Added text keys members updated) : Grown source updated

namespace Grown

variable {source wider : List String → String → Prop} {members : Members}

theorem mono (grown : Grown source members)
    (weaker : ∀ keys text, source keys text → wider keys text) : Grown wider members := by
  induction grown with
  | empty => exact .empty
  | add _ known added ih => exact .add ih (weaker _ _ known) added

theorem textTree (grown : Grown source members) {depth : Nat} (positive : 0 < depth)
    (shallow : ∀ keys text, source keys text → keys.length ≤ depth) :
    Json.TextTree depth (.object members) := by
  induction grown with
  | empty => exact .nil positive
  | add _ known added ih => exact added.textTree ih (shallow _ _ known)

theorem exists_textTree (grown : Grown source members) :
    ∃ depth, Json.TextTree depth (.object members) := by
  induction grown with
  | empty => exact ⟨1, .nil Nat.one_pos⟩
  | @add _ keys _ _ _ _ added ih =>
    obtain ⟨depth, tree⟩ := ih
    exact ⟨max depth keys.length,
      added.textTree (tree.mono (Nat.le_max_left ..)) (Nat.le_max_right ..)⟩

/-- Every text is under its keys. -/
theorem known (grown : Grown source members) {path : List String} {text : String}
    (leaf : (Json.object members).getAt? path = some (.string text)) : source path text := by
  induction grown with
  | empty => cases path <;> cases leaf
  | add _ known added ih =>
    rcases added.getAt?_cases leaf with old | ⟨rfl, same⟩ | ⟨_, _, _, _, node⟩
    · exact ih old
    · cases same
      exact known
    · cases node

/-- There is nothing but texts and objects. -/
theorem leaf_or_node (grown : Grown source members) {path : List String} {value : Json}
    (found : (Json.object members).getAt? path = some value) :
    (∃ text, value = .string text) ∨ ∃ inner, value = .object inner := by
  induction grown with
  | empty =>
    cases path with
    | nil => exact .inr ⟨[], (Option.some.inj found).symm⟩
    | cons => cases found
  | @add text _ _ _ _ _ added ih =>
    rcases added.getAt?_cases found with old | ⟨_, leaf⟩ | ⟨_, inner, _, _, node⟩
    · exact ih old
    · exact .inl ⟨text, leaf⟩
    · exact .inr ⟨inner, node⟩

/-- A text lies below every object under keys. -/
theorem text_below (grown : Grown source members) {path : List String} (some : path ≠ [])
    {inner : Members} (node : (Json.object members).getAt? path = .some (.object inner)) :
    ∃ below text, below ≠ [] ∧
      (Json.object members).getAt? (path ++ below) = .some (.string text) := by
  induction grown with
  | empty =>
    obtain ⟨key, rest, rfl⟩ := List.exists_cons_of_ne_nil some
    cases node
  | @add text keys members updated _ known added ih =>
    rcases added.getAt?_cases node with old | ⟨_, leaf⟩ | ⟨below, _, more, rfl, _⟩
    · obtain ⟨below, other, more, leaf⟩ := ih old
      obtain ⟨later, found, rfl | ⟨_, _, object, _⟩⟩ := added.kept leaf
      · exact ⟨below, other, more, found⟩
      · cases object
    · cases leaf
    · exact ⟨below, text, more, added.getAt?⟩

end Grown

end Members

/-- A text lies below keys. -/
def Json.TextBelow (value : Json) (keys : List String) : Prop :=
  ∃ below text, below ≠ [] ∧ value.getAt? (keys ++ below) = some (.string text)

/-- An entry is a text or an object. It is a text if no text lies below its keys. -/
theorem Members.Grown.entry {source : List String → String → Prop} {members : Members}
    (grown : Grown source members) {keys : List String} (some : keys ≠ [])
    (present : ((Json.object members).getAt? keys).isSome = true) :
    (∃ text, (Json.object members).getAt? keys = .some (.string text)) ∧
        ¬ (Json.object members).TextBelow keys ∨
      (∃ inner, (Json.object members).getAt? keys = .some (.object inner)) ∧
        (Json.object members).TextBelow keys := by
  obtain ⟨value, found⟩ := Option.isSome_iff_exists.mp present
  rcases grown.leaf_or_node found with ⟨text, rfl⟩ | ⟨inner, rfl⟩
  · refine .inl ⟨⟨text, found⟩, ?_⟩
    rintro ⟨below, other, more, leaf⟩
    rw [Json.getAt?_below_string found more] at leaf
    cases leaf
  · exact .inr ⟨⟨inner, found⟩, grown.text_below some found⟩

/-! ## Runs -/

/-- What the fixes of a document say about bare texts. -/
def Fixes.notes (fixes : Fixes) : List Note :=
  fixes.issues.filterMap Issue.note? ++ fixes.replacements.map Replacement.note

theorem Catalog.Deals.replacements_subset {catalog : Catalog} {filePath : String}
    {fixing next : Catalog.Fixing} {finding : Finding} {printed : List Members}
    (deals : catalog.Deals filePath fixing finding printed next) :
    fixing.outcome.replacements ⊆ next.outcome.replacements := by
  cases deals with
  | unplanned => exact List.Subset.refl _
  | textless => exact List.Subset.refl _
  | @settled _ _ _ _ answer _ _ _ inserts =>
    rcases answer with ⟨error | insertion, after⟩
    · exact List.Subset.refl _
    · exact List.subset_append_left ..

namespace Session

/-- The texts that a run came upon, each under the segments of its key: those noted in its results
and those replaced in the document at hand. -/
inductive Met (session : Session) (state : State) (keys : List String) (text : String) : Prop where
  | noted {result : Result} {note : Note} (taken : result ∈ state.results)
      (noted : note ∈ result.fixes.notes) (trimmed : text = Text.trim note.source)
      (under : keys = session.catalog.segments result.fixes.filePath text)
  | replaced {path : Path} {document : Document} {fixing : Catalog.Fixing}
      {findings : List Finding} {replacement : Replacement}
      (here : state.phase = .within path document fixing findings)
      (made : replacement ∈ fixing.outcome.replacements)
      (trimmed : text = Text.trim replacement.source)
      (under : keys = session.catalog.segments document.filePath text)

variable {session : Session} {rule : Rule} {disk : Disk} {state next : State}

theorem Step.results_subset (step : session.Step rule state next) :
    state.results ⊆ next.results := by
  cases step with
  | begin => exact List.Subset.refl _
  | deal => exact List.Subset.refl _
  | _ => exact List.subset_append_left ..

/-- What was met stays met. -/
theorem Met.step {keys : List String} {text : String} (met : session.Met state keys text)
    (step : session.Step rule state next) : session.Met next keys text := by
  cases met with
  | noted taken noted trimmed under => exact .noted (step.results_subset taken) noted trimmed under
  | @replaced path document fixing findings replacement here made trimmed under =>
    cases step with
    | unread => cases here
    | begin => cases here
    | deal deals =>
      cases here
      exact .replaced rfl (deals.replacements_subset made) trimmed under
    | unneeded unchanged =>
      cases here
      simp [unchanged] at made
    | saved =>
      cases here
      have noted : replacement.note ∈ (written document.filePath fixing.outcome).notes :=
        List.mem_append_right _ (List.mem_map_of_mem made)
      exact .noted (List.mem_append_right _ (List.mem_singleton_self _)) noted trimmed under
    | unsaved changed error =>
      cases here
      have noted : replacement.toFinding.note ∈
          (session.unwritten path document.filePath fixing.outcome error).notes := by
        refine List.mem_append_left _
          (List.mem_filterMap.mpr ⟨.bare document.filePath replacement.toFinding, ?_, rfl⟩)
        exact List.mem_append_right _ (List.mem_map_of_mem
          (List.mem_append_right _ (List.mem_map_of_mem made)))
      exact .noted (List.mem_append_right _ (List.mem_singleton_self _)) noted trimmed under

/-- The catalog file cannot be taken for a document. -/
def NoDocument (session : Session) (state : State) : Prop :=
  ∀ document, Document.load state.disk session.catalog.path ≠ .ok document

theorem NoDocument.of_readText {text : String} {fault : Json.Fault}
    (read : state.disk.readText session.catalog.path = .ok text)
    (malformed : Document.parse text = .error fault) : session.NoDocument state := by
  intro document loaded
  obtain ⟨other, alsoRead, parsed⟩ := bind_eq_ok_iff.mp loaded
  obtain rfl : text = other := Except.ok.inj (read.symm.trans (mapError_eq_ok_iff.mp alsoRead))
  cases malformed.symm.trans (mapError_eq_ok_iff.mp parsed)

/-- As long as the catalog is no document, it is not the document at hand. -/
theorem Aside.step (aside : session.Aside state) (noDocument : session.NoDocument state)
    (step : session.Step rule state next) : session.Aside next := by
  cases step with
  | begin loaded =>
    rintro path document fixing findings ⟨⟩ same
    exact noDocument _ (Document.load_sameFile same.symm loaded)
  | deal deals =>
    rintro path document fixing findings ⟨⟩ same
    exact aside _ _ _ _ rfl ((deals.changesOnly.shape.sameFile _ _).mp same)
  | _ => rintro _ _ _ _ ⟨⟩

/-- The catalog on a disk has grown by texts that a run met, and what was printed for it on the way
is read back. -/
structure Filled (session : Session) (state : State) : Prop where
  grown : ∃ members, session.catalog.load state.disk = .ok members ∧
    Members.Grown (session.Met state) members
  readsBack : ∀ members ∈ state.printed, Catalog.ReadsBack members
  noDocument : session.NoDocument state

/-- The catalog on a disk cannot be read any more, because a key has too many segments. -/
structure Lost (session : Session) (state : State) : Prop where
  unread : ∀ members, session.catalog.load state.disk ≠ .ok members
  deep : ∃ keys text, session.Met state keys text ∧ Json.Reader.depthLimit < keys.length
  noDocument : session.NoDocument state

theorem Filled.start (empty : session.catalog.load disk = .ok []) :
    session.Filled (session.initial disk) where
  grown := ⟨[], empty, .empty⟩
  readsBack := by simp [initial]
  noDocument := by
    obtain ⟨text, read, parsed⟩ := Catalog.load_eq_ok_iff.mp empty
    obtain ⟨fault, malformed⟩ := Document.parse_of_empty parsed
    exact .of_readText read malformed

section

variable (step : session.Step rule state next)
  (same : session.catalog.load next.disk = session.catalog.load state.disk)
  (sameDocument : Document.load next.disk session.catalog.path =
    Document.load state.disk session.catalog.path)

include step same sameDocument

/-- A step that leaves the catalog as it is keeps it filled. -/
theorem Filled.keep (filled : session.Filled state) (printed : next.printed = state.printed) :
    session.Filled next where
  grown := by
    obtain ⟨members, loaded, grown⟩ := filled.grown
    exact ⟨members, same.trans loaded, grown.mono fun _ _ met => met.step step⟩
  readsBack := printed ▸ filled.readsBack
  noDocument := fun document loaded => filled.noDocument document (sameDocument.symm.trans loaded)

theorem Lost.keep (lost : session.Lost state) : session.Lost next where
  unread := fun members loaded => lost.unread members (same.symm.trans loaded)
  deep := by
    obtain ⟨keys, text, met, deep⟩ := lost.deep
    exact ⟨keys, text, met.step step, deep⟩
  noDocument := fun document loaded => lost.noDocument document (sameDocument.symm.trans loaded)

end

/-- What a step can do to the catalog: nothing, or a text that it meets is added and written. -/
theorem Step.load_cases (frame : session.Frame disk state) (aside : session.Aside state)
    (step : session.Step rule state next) :
    (session.catalog.load next.disk = session.catalog.load state.disk ∧
        Document.load next.disk session.catalog.path =
          Document.load state.disk session.catalog.path ∧
        next.printed = state.printed) ∨
      ∃ keys text members updated, session.catalog.load state.disk = .ok members ∧
        session.Met next keys text ∧ Members.Added text keys members updated ∧
        state.disk.writeText session.catalog.path (Catalog.fileText updated) = .ok next.disk ∧
        next.printed = state.printed ++ [updated] := by
  cases step with
  | unread failed => exact .inl ⟨rfl, rfl, rfl⟩
  | begin loaded => exact .inl ⟨rfl, rfl, rfl⟩
  | deal deals =>
    cases deals with
    | unplanned => exact .inl ⟨rfl, rfl, List.append_nil _⟩
    | textless => exact .inl ⟨rfl, rfl, List.append_nil _⟩
    | @settled _ _ replacement _ _ _ _ planned inserts =>
      cases inserts with
      | refused error => exact .inl ⟨rfl, rfl, List.append_nil _⟩
      | existing present => exact .inl ⟨rfl, rfl, List.append_nil _⟩
      | @added updated after updatedEq written =>
        obtain ⟨members, loaded, inserted⟩ := Catalog.load_of_update updatedEq
        obtain ⟨_, _, source, _, _⟩ := Catalog.plan?_eq_some_iff.mp planned
        refine .inr ⟨_, _, members, updated, loaded, ?_, Members.added_of_insertAt inserted,
          written, rfl⟩
        exact .replaced rfl (List.mem_append_right _ (List.mem_singleton_self replacement))
          (congrArg Text.trim source.symm) rfl
  | unneeded unchanged => exact .inl ⟨rfl, rfl, rfl⟩
  | @saved results printed path document fixing rest after changed saved =>
    have changes := frame.changesOnly_of_save saved
    have elsewhere : ∀ other ∈ [path], ¬ fixing.disk.SameFile session.catalog.path other := by
      simpa using aside _ _ _ _ rfl
    exact .inl ⟨Catalog.load_changesOnly changes elsewhere,
      Document.load_changesOnly changes elsewhere, rfl⟩
  | unsaved changed error => exact .inl ⟨rfl, rfl, rfl⟩

theorem Lost.step (lost : session.Lost state) (frame : session.Frame disk state)
    (aside : session.Aside state) (step : session.Step rule state next) : session.Lost next := by
  rcases step.load_cases frame aside with ⟨same, sameDocument, _⟩ | ⟨_, _, members, _, loaded, _⟩
  · exact lost.keep step same sameDocument
  · exact absurd loaded (lost.unread members)

/-- A catalog that is filled stays so, until a text is added under more segments than can be read
back. -/
theorem Filled.step (filled : session.Filled state) (frame : session.Frame disk state)
    (aside : session.Aside state) (step : session.Step rule state next) :
    session.Filled next ∨ session.Lost next := by
  rcases step.load_cases frame aside with ⟨same, sameDocument, printed⟩ |
    ⟨keys, text, members, updated, loaded, met, added, written, printed⟩
  · exact .inl (filled.keep step same sameDocument printed)
  · obtain ⟨other, alsoLoaded, grown⟩ := filled.grown
    obtain rfl : members = other := Except.ok.inj (loaded.symm.trans alsoLoaded)
    have grownNext : Members.Grown (session.Met next) updated :=
      .add (grown.mono fun _ _ before => before.step step) met added
    obtain ⟨depth, tree⟩ := grownNext.exists_textTree
    have read := Disk.readText_writeText (Catalog.isFile_of_load loaded) written
    obtain ⟨fault, malformed⟩ := tree.document_parse
    have noDocument : session.NoDocument next := .of_readText read malformed
    by_cases fits : Json.TextTree Json.Reader.depthLimit (.object updated)
    · have readsBack : Catalog.ReadsBack updated := tree.parse_iff.mpr ⟨rfl, fits⟩
      refine .inl ⟨⟨updated, ?_, grownNext⟩, ?_, noDocument⟩
      · exact Catalog.load_of_written (Catalog.isFile_of_load loaded) written readsBack
      · intro members among
        rw [printed] at among
        rcases List.mem_append.mp among with before | last
        · exact filled.readsBack members before
        · obtain rfl := List.mem_singleton.mp last
          exact readsBack
    · refine .inr ⟨?_, ?_, noDocument⟩
      · intro members again
        obtain ⟨content, alsoRead, parsed⟩ := Catalog.load_eq_ok_iff.mp again
        cases read.symm.trans alsoRead
        exact fits (tree.parse_iff.mp parsed).2
      · by_contra none
        refine fits (grownNext.textTree (by decide) fun keys text met => ?_)
        by_contra deep
        exact none ⟨keys, text, met, Nat.lt_of_not_le deep⟩

theorem Reaches.filled_or_lost (reaches : session.Reaches rule disk state)
    (empty : session.catalog.load disk = .ok []) :
    session.Aside state ∧ (session.Filled state ∨ session.Lost state) := by
  induction reaches with
  | refl => exact ⟨by rintro _ _ _ _ ⟨⟩, .inl (.start empty)⟩
  | tail before step ih =>
    obtain ⟨aside, filled | lost⟩ := ih
    · exact ⟨aside.step filled.noDocument step, filled.step (Reaches.frame before) aside step⟩
    · exact ⟨aside.step lost.noDocument step, .inr (lost.step (Reaches.frame before) aside step)⟩

theorem Met.of_finished {results : List Result} {printed : List Members} {after : Disk}
    {keys : List String} {text : String}
    (met : session.Met (.finished results printed after) keys text) :
    ∃ result ∈ results, ∃ note ∈ result.fixes.notes, text = Text.trim note.source ∧
      keys = session.catalog.segments result.fixes.filePath text := by
  cases met with
  | @noted result note taken noted trimmed under => exact ⟨result, taken, note, noted, trimmed, under⟩
  | replaced here => cases here

end Session

/-- What members hold for a text of a template: the text itself if no other text lies below its key,
and an object if one does. -/
structure Catalog.Covers (catalog : Catalog) (members : Members) (filePath text : String) :
    Prop where
  text_iff : (Json.object members).getAt? (catalog.segments filePath text) =
    some (.string text) ↔ ¬ (Json.object members).TextBelow (catalog.segments filePath text)
  object_iff : (∃ inner, (Json.object members).getAt? (catalog.segments filePath text) =
    some (.object inner)) ↔ (Json.object members).TextBelow (catalog.segments filePath text)

theorem Catalog.text_eq_of_segments_eq {catalog : Catalog} {filePath other text otherText : String}
    (same : catalog.segments filePath text = catalog.segments other otherText) :
    text = otherText := by
  have last := congrArg List.getLast? same
  simpa [segments, Key.segments] using last

namespace Session

variable {session : Session} {rule : Rule} {disk : Disk}

/-- A filled catalog covers every text with an entry. -/
theorem Filled.covers {results : List Result} {printed : List Members} {after : Disk}
    {members : Members} (grown : Members.Grown (session.Met (.finished results printed after)) members)
    {filePath text : String}
    (present : ((Json.object members).getAt? (session.catalog.segments filePath text)).isSome = true) :
    session.catalog.Covers members filePath text := by
  rcases grown.entry (session.catalog.segments_ne_nil filePath text) present with
    ⟨⟨other, leaf⟩, clear⟩ | ⟨⟨inner, node⟩, below⟩
  · -- A text in the catalog ends its own key, so it is the text asked for.
    obtain ⟨result, _, _, _, _, under⟩ := (grown.known leaf).of_finished
    obtain rfl := Catalog.text_eq_of_segments_eq under
    exact ⟨by simp [leaf, clear], by simp [leaf, clear]⟩
  · exact ⟨by simp [node, below], by simp [node, below]⟩

/-- After a run that starts with an empty catalog, the catalog can be read if no key has too many
segments. Its texts are texts that the results note, under their own keys, and it covers every text
that was replaced. Applying all fixes is such a run. -/
theorem runs_cover_replaced_texts (session : Session) (rule : Rule) (disk : Disk)
    (empty : session.catalog.load disk = .ok []) :
    (∃ results printed, results.map Result.fixes = (session.applyAll rule disk).1 ∧
      session.Reaches rule disk (.finished results printed (session.applyAll rule disk).2)) ∧
    ∀ results printed after, session.Reaches rule disk (.finished results printed after) →
      ((∀ result ∈ results,
          (session.catalog.segments result.fixes.filePath "").length ≤ Json.Reader.depthLimit) →
        ∃ members, session.catalog.load after = .ok members) ∧
      ∀ members, session.catalog.load after = .ok members →
        (∀ keys text, (Json.object members).getAt? keys = some (.string text) →
          ∃ result ∈ results, ∃ note ∈ result.fixes.notes, text = Text.trim note.source ∧
            keys = session.catalog.segments result.fixes.filePath text) ∧
        ∀ result ∈ results, ∀ replacement ∈ result.fixes.replacements,
          session.catalog.Covers members result.fixes.filePath (Text.trim replacement.source) := by
  refine ⟨session.applyAll_reaches rule disk, fun results printed after reaches => ?_⟩
  have aside : ∀ state, session.Reaches rule disk state → session.Aside state :=
    fun _ reached => (Reaches.filled_or_lost reached empty).1
  rcases (Reaches.filled_or_lost reaches empty).2 with filled | lost
  · obtain ⟨members, loaded, grown⟩ := filled.grown
    refine ⟨fun _ => ⟨members, loaded⟩, fun other again => ?_⟩
    obtain rfl : members = other := Except.ok.inj (loaded.symm.trans again)
    refine ⟨fun keys text leaf => (grown.known leaf).of_finished, ?_⟩
    intro result taken replacement made
    obtain ⟨other, again, present, _⟩ :=
      (Reaches.recorded_of_aside reaches aside filled.readsBack).results result taken replacement made
    obtain rfl : members = other := Except.ok.inj (loaded.symm.trans again)
    exact Filled.covers grown present
  · refine ⟨fun shallow => ?_, fun members loaded => absurd loaded (lost.unread members)⟩
    obtain ⟨keys, text, met, deep⟩ := lost.deep
    obtain ⟨result, taken, _, _, _, under⟩ := met.of_finished
    have short := shallow result taken
    rw [under] at deep
    simp only [Catalog.segments, Key.segments, List.length_append, List.length_singleton]
      at short deep
    omega

namespace Sample

/-- An empty catalog, a document of the template `app/a/b.hbs`, and one of the template `app/a.hbs`
whose text is the name of the other. -/
def nestedDisk : Disk where
  entries :=
    [(["translations"], .directory .full),
     (["translations", "en.json"], .file (.text "\x7b\x7d") .full),
     (["1.ast.json"], .file (.text (textDocument "app/a/b.hbs" "Hi")) .full),
     (["2.ast.json"], .file (.text (textDocument "app/a.hbs" "b")) .full)]

/-- The session of the project. -/
def nested : Session :=
  { Sample.session with documents := [⟨"/1.ast.json"⟩, ⟨"/2.ast.json"⟩] }

/-- The replacement of the text that is the name of the other template. -/
def nestedReplacement : Replacement := ⟨⟨1, 2⟩, "b", "a.b", "\x7b\x7bt \"a.b\"\x7d\x7d"⟩

/-- What is done about the two documents. -/
def nestedFixes : List Fixes :=
  [{ filePath := "app/a/b.hbs"
     replacements := [⟨⟨1, 2⟩, "Hi", "a.b.Hi", "\x7b\x7bt \"a.b.Hi\"\x7d\x7d"⟩] },
   { filePath := "app/a.hbs", replacements := [nestedReplacement] }]

end Sample

/-- The text of the second template is replaced by a call whose key leads to an object. -/
theorem sample_text_covered_by_object :
    (Sample.nested.applyAll Sample.rule Sample.nestedDisk).1 = Sample.nestedFixes ∧
    ∃ members inner,
      Sample.nested.catalog.load (Sample.nested.applyAll Sample.rule Sample.nestedDisk).2 =
        .ok members ∧
      (Json.object members).getAt? ["a", "b"] = some (.object inner) := by
  have applied : (Sample.nested.applyAll Sample.rule Sample.nestedDisk).1 = Sample.nestedFixes := by
    decide +kernel
  have empty : Sample.nested.catalog.load Sample.nestedDisk = .ok [] :=
    Catalog.load_eq_ok_iff.mpr ⟨"\x7b\x7d", by decide +kernel, rfl⟩
  have unlike : ((Sample.nested.catalog.load
      (Sample.nested.applyAll Sample.rule Sample.nestedDisk).2).toOption.bind fun members =>
        ((Json.object members).getAt? ["a", "b"]).bind Json.string?) = none := by
    decide +kernel
  obtain ⟨⟨results, printed, fixes, reaches⟩, runs⟩ := runs_cover_replaced_texts Sample.nested
    Sample.rule Sample.nestedDisk empty
  rw [applied] at fixes
  obtain ⟨readable, covers⟩ := runs results printed _ reaches
  have shallow : ∀ result ∈ results, (Sample.nested.catalog.segments
      result.fixes.filePath "").length ≤ Json.Reader.depthLimit := by
    intro result taken
    have among : result.fixes ∈ Sample.nestedFixes := fixes ▸ List.mem_map_of_mem taken
    have all : ∀ fixes ∈ Sample.nestedFixes, (Sample.nested.catalog.segments
        fixes.filePath "").length ≤ Json.Reader.depthLimit := by
      decide +kernel
    exact all _ among
  obtain ⟨members, loaded⟩ := readable shallow
  obtain ⟨result, taken, second⟩ : ∃ result ∈ results, result.fixes =
      { filePath := "app/a.hbs", replacements := [Sample.nestedReplacement] } :=
    List.mem_map.mp (fixes ▸ List.mem_cons_of_mem _ (List.mem_cons_self ..))
  have made : Sample.nestedReplacement ∈ result.fixes.replacements := by
    rw [second]
    exact List.mem_cons_self ..
  have filePath : result.fixes.filePath = "app/a.hbs" := by rw [second]
  have keys : Sample.nested.catalog.segments "app/a.hbs"
      (Text.trim Sample.nestedReplacement.source) = ["a", "b"] := by
    decide +kernel
  obtain ⟨text_iff, object_iff⟩ := (covers members loaded).2 result taken _ made
  rw [filePath, keys] at text_iff object_iff
  obtain ⟨inner, node⟩ := object_iff.mpr <| by
    by_contra clear
    have text := text_iff.mpr clear
    simp [loaded, text, Except.toOption, Json.string?] at unlike
  exact ⟨applied, members, inner, loaded, node⟩

end Session

end TemplateLint
