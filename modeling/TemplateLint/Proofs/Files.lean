import Mathlib
import TemplateLint.Document.File

/-! # What a write leaves alone

A write to a file that is there changes the content of that file and nothing else: no entry comes or
goes, no access changes, so every path leads where it led before. Reading from a path that leads
elsewhere gives what it gave before. These facts are stated for any two disks of the same shape, so
that they carry over to runs with many writes.
-/

namespace TemplateLint

/-- A computation that came to its end came to the end of each part. -/
theorem bind_eq_ok_iff {ε α β : Type} {first : Except ε α} {second : α → Except ε β} {b : β} :
    (first >>= second) = .ok b ↔ ∃ a, first = .ok a ∧ second a = .ok b := by
  cases first <;> simp [bind, Except.bind]

theorem map_eq_ok_iff {ε α β : Type} {change : α → β} {computation : Except ε α} {b : β} :
    computation.map change = .ok b ↔ ∃ a, computation = .ok a ∧ change a = b := by
  cases computation <;> simp [Except.map]

theorem map_of_bind {ε α β γ : Type} (first : Except ε α) (second : α → Except ε β)
    (change : β → γ) : (first >>= second).map change = first >>= fun a => (second a).map change := by
  cases first <;> rfl

theorem mapError_eq_ok_iff {ε ε' α : Type} {f : ε → ε'} {computation : Except ε α} {a : α} :
    computation.mapError f = .ok a ↔ computation = .ok a := by
  cases computation <;> simp [Except.mapError]

/-- The items of a list are changed each on its own. -/
theorem mapM_eq_ok_iff {ε α β : Type} {change : α → Except ε β} {items : List α}
    {results : List β} :
    items.mapM change = .ok results ↔
      List.Forall₂ (fun item result => change item = .ok result) items results := by
  induction items generalizing results with
  | nil => simp [pure, Except.pure, eq_comm]
  | cons item rest ih =>
    rw [List.mapM_cons, List.forall₂_cons_left_iff, bind_eq_ok_iff]
    refine exists_congr fun result => ?_
    constructor
    · rintro ⟨changed, later⟩
      obtain ⟨others, changedRest, built⟩ := bind_eq_ok_iff.mp later
      exact ⟨others, changed, ih.mp changedRest, (Except.ok.inj built).symm⟩
    · rintro ⟨others, changed, later, rfl⟩
      exact ⟨changed, bind_eq_ok_iff.mpr ⟨others, ih.mpr later, rfl⟩⟩

theorem lookup_cons_ite {α β : Type} [BEq α] [LawfulBEq α] [DecidableEq α] (key other : α)
    (value : β) (rest : List (α × β)) :
    List.lookup other ((key, value) :: rest) =
      if other = key then some value else rest.lookup other := by
  rw [List.lookup_cons]
  by_cases same : other = key
  · simp [same]
  · simp [same, beq_eq_false_iff_ne.mpr same]

/-! ## Shape -/

/-- An entry with the content of a file forgotten. -/
def Entry.hollow : Entry → Entry
  | .file _ access => .file (.text "") access
  | .directory access => .directory access

namespace Disk

/-- A target with the content of a file forgotten. -/
def Target.hollow : Target → Target
  | .present route entry => .present route entry.hollow
  | .vacant directory name => .vacant directory name

/-- Two disks have the same entries up to the contents of files. -/
def SameShape (disk after : Disk) : Prop :=
  ∀ route, (after.entry? route).map Entry.hollow = (disk.entry? route).map Entry.hollow

/-- Entering a directory depends on the shape only. -/
theorem enter_eq (disk : Disk) (route : Route) :
    disk.enter route =
      match (disk.entry? route).map Entry.hollow with
      | none => .error .notFound
      | some (.file _ _) => .error .notDirectory
      | some (.directory .none) => .error .denied
      | some (.directory _) => .ok () := by
  unfold enter
  rcases disk.entry? route with _ | ⟨_, _⟩ | ⟨_ | _ | _⟩ <;> rfl

theorem follow_nil (disk : Disk) (route : Route) :
    (disk.follow route []).map Target.hollow =
      match (disk.entry? route).map Entry.hollow with
      | some entry => .ok (.present route entry)
      | none => .error .notFound := by
  unfold follow
  cases disk.entry? route <;> rfl

/-- One name of a path, without the match that tells a vacant last name from all others. -/
theorem follow_cons (disk : Disk) (route : Route) (name : String) (rest : List String) :
    disk.follow route (name :: rest) =
      match disk.enter route with
      | .error error => .error error
      | .ok _ =>
        if name = "." then disk.follow route rest
        else if name = ".." then disk.follow route.dropLast rest
        else if nameLimit < name.utf8ByteSize then .error .nameTooLong
        else if disk.entry? (route ++ [name]) = none ∧ rest = [] then .ok (.vacant route name)
        else disk.follow (route ++ [name]) rest := by
  by_cases vacant : disk.entry? (route ++ [name]) = none ∧ rest = []
  · obtain ⟨free, rfl⟩ := vacant
    rw [follow.eq_2 _ _ _ free]
    cases disk.enter route <;> simp [free, bind, Except.bind]
  · rw [follow.eq_3 _ _ _ _ fun free last => vacant ⟨free, last⟩]
    cases disk.enter route <;> simp [vacant, bind, Except.bind]

namespace SameShape

variable {disk middle after : Disk}

theorem refl (disk : Disk) : disk.SameShape disk := fun _ => rfl

theorem trans (first : disk.SameShape middle) (second : middle.SameShape after) :
    disk.SameShape after := fun route => (second route).trans (first route)

theorem isNone (same : disk.SameShape after) (route : Route) :
    after.entry? route = none ↔ disk.entry? route = none := by
  rw [← Option.map_eq_none_iff, same route, Option.map_eq_none_iff]

theorem enter (same : disk.SameShape after) (route : Route) :
    after.enter route = disk.enter route := by
  rw [enter_eq, enter_eq, same route]

/-- Following a path depends on the shape only, except for the content that is found. -/
theorem follow (same : disk.SameShape after) (route : Route) (names : List String) :
    (after.follow route names).map Target.hollow = (disk.follow route names).map Target.hollow := by
  induction names generalizing route with
  | nil => rw [follow_nil, follow_nil, same route]
  | cons name rest ih =>
    simp only [follow_cons, same.enter route, same.isNone]
    cases disk.enter route with
    | error error => rfl
    | ok _ =>
      dsimp only
      split_ifs
      · exact ih route
      · exact ih route.dropLast
      · rfl
      · rfl
      · exact ih (route ++ [name])

end SameShape

/-! ## Finding -/

/-- The route that a path leads to. -/
def route? (disk : Disk) (path : Path) : Option Route :=
  match disk.find path with
  | .ok (.present route _) => some route
  | _ => none

/-- Whether two paths lead to one entry. -/
def SameFile (disk : Disk) (a b : Path) : Prop := ∃ route ∈ disk.route? a, disk.route? b = some route

instance (disk : Disk) (a b : Path) : Decidable (disk.SameFile a b) :=
  inferInstanceAs (Decidable (∃ route ∈ disk.route? a, disk.route? b = some route))

theorem SameFile.symm {disk : Disk} {a b : Path} (same : disk.SameFile a b) :
    disk.SameFile b a := by
  obtain ⟨route, here, there⟩ := same
  exact ⟨route, there, here⟩

theorem follow_present {disk : Disk} {start route : Route} {names : List String} {entry : Entry}
    (found : disk.follow start names = .ok (.present route entry)) :
    disk.entry? route = some entry := by
  induction names generalizing start with
  | nil =>
    unfold follow at found
    cases present : disk.entry? start with
    | none => simp [present] at found
    | some other =>
      simp only [present, Except.ok.injEq, Target.present.injEq] at found
      rw [← found.1, present, found.2]
  | cons name rest ih =>
    rw [follow_cons] at found
    cases entered : disk.enter start with
    | error error => simp [entered] at found
    | ok _ =>
      simp only [entered] at found
      split_ifs at found
      · exact ih found
      · exact ih found
      · exact absurd found (by simp)
      · exact ih found

/-- What a path leads to is what following its names leads to. -/
theorem follow_of_find {disk : Disk} {path : Path} {target : Target}
    (found : disk.find path = .ok target) : disk.follow [] (lookups path) = .ok target := by
  obtain ⟨_, _, after⟩ := bind_eq_ok_iff.mp found
  obtain ⟨other, followed, closed⟩ := bind_eq_ok_iff.mp after
  rw [followed]
  split at closed
  · split_ifs at closed
    exact closed
  · exact closed

theorem find_present {disk : Disk} {path : Path} {route : Route} {entry : Entry}
    (found : disk.find path = .ok (.present route entry)) : disk.entry? route = some entry :=
  follow_present (follow_of_find found)

theorem find_of_route? {disk : Disk} {path : Path} {route : Route}
    (leads : disk.route? path = some route) :
    ∃ entry, disk.entry? route = some entry ∧ disk.find path = .ok (.present route entry) := by
  unfold route? at leads
  split at leads
  next entry found =>
    obtain rfl := Option.some.inj leads
    exact ⟨entry, find_present found, found⟩
  next => cases leads

theorem SameFile.find {disk : Disk} {a b : Path} (same : disk.SameFile a b) :
    disk.find a = disk.find b := by
  obtain ⟨route, here, there⟩ := same
  obtain ⟨entry, kept, found⟩ := find_of_route? here
  obtain ⟨other, alsoKept, alsoFound⟩ := find_of_route? there
  rw [found, alsoFound, Option.some.inj (kept.symm.trans alsoKept)]

/-- A path that may end in a slash only if it leads to a directory. -/
def closed (path : Path) (target : Target) : Except FileError Target :=
  match target with
  | .present _ (.file _ _) => if endsInSlash path then .error .notDirectory else .ok target
  | _ => .ok target

theorem find_eq (disk : Disk) (path : Path) :
    (disk.find path).map Target.hollow =
      (checkSpelling path).bind fun _ =>
        ((disk.follow [] (lookups path)).map Target.hollow).bind (closed path) := by
  unfold find
  cases checkSpelling path with
  | error error => rfl
  | ok _ =>
    rcases disk.follow [] (lookups path) with _ | ⟨_, _ | _⟩ | _ <;>
      simp only [bind, Except.bind, Except.map, closed, Target.hollow, Entry.hollow]
    split_ifs <;> rfl

theorem route?_eq (disk : Disk) (path : Path) :
    disk.route? path =
      match (disk.find path).map Target.hollow with
      | .ok (.present route _) => some route
      | _ => none := by
  unfold route?
  rcases disk.find path with _ | ⟨_, _⟩ | _ <;> rfl

theorem isFile_eq (disk : Disk) (path : Path) :
    disk.isFile path =
      match (disk.find path).map Target.hollow with
      | .ok (.present _ (.file _ _)) => true
      | _ => false := by
  unfold isFile
  rcases disk.find path with _ | ⟨_, _ | _⟩ | _ <;> rfl

namespace SameShape

variable {disk after : Disk}

theorem find_hollow (same : disk.SameShape after) (path : Path) :
    (after.find path).map Target.hollow = (disk.find path).map Target.hollow := by
  rw [find_eq, find_eq, same.follow]

/-- Every path leads where it led before. -/
theorem route? (same : disk.SameShape after) (path : Path) :
    after.route? path = disk.route? path := by
  rw [route?_eq, route?_eq, same.find_hollow]

theorem sameFile (same : disk.SameShape after) (a b : Path) :
    after.SameFile a b ↔ disk.SameFile a b := by
  simp only [SameFile, same.route?]

/-- A path leads to the same target if the entry it leads to is the same. -/
theorem find (same : disk.SameShape after) {path : Path}
    (kept : ∀ route, disk.route? path = some route → after.entry? route = disk.entry? route) :
    after.find path = disk.find path := by
  have shape := same.find_hollow path
  cases before : disk.find path with
  | error error =>
    cases now : after.find path <;> simp_all [Except.map]
  | ok target =>
    cases now : after.find path with
    | error error => simp [before, now, Except.map] at shape
    | ok other =>
      cases target with
      | vacant directory name =>
        cases other <;> simp_all [Except.map, Target.hollow]
      | present route entry =>
        cases other with
        | vacant directory name => simp [before, now, Except.map, Target.hollow] at shape
        | present otherRoute otherEntry =>
          obtain rfl : otherRoute = route := by
            simp only [before, now, Except.map, Target.hollow, Except.ok.injEq,
              Target.present.injEq] at shape
            exact shape.1
          have entries := kept otherRoute (by simp [Disk.route?, before])
          rw [find_present before, find_present now] at entries
          rw [Option.some.inj entries]

theorem readText (same : disk.SameShape after) {path : Path}
    (kept : ∀ route, disk.route? path = some route → after.entry? route = disk.entry? route) :
    after.readText path = disk.readText path := by
  unfold Disk.readText
  rw [same.find kept]

theorem isFile (same : disk.SameShape after) (path : Path) :
    after.isFile path = disk.isFile path := by
  rw [isFile_eq, isFile_eq, same.find_hollow]

end SameShape

/-! ## Writing -/

private theorem lookup_map_replace (entries : List (Route × Entry)) (route other : Route)
    (entry : Entry) :
    List.lookup other
        (entries.map fun known => if known.1 == route then (route, entry) else known) =
      if other = route then (entries.lookup route).map fun _ => entry
      else entries.lookup other := by
  induction entries with
  | nil => simp
  | cons head rest ih =>
    rcases head with ⟨place, old⟩
    rw [List.map_cons]
    by_cases here : place = route
    · subst here
      simp only [beq_self_eq_true, if_true, lookup_cons_ite, ih]
      split_ifs <;> rfl
    · simp only [beq_eq_false_iff_ne.mpr here, Bool.false_eq_true, if_false, lookup_cons_ite, ih]
      by_cases same : other = place
      · simp [same, here]
      · simp [same, Ne.symm here]

/-- Putting an entry below the top changes that entry only. -/
theorem entry?_put (disk : Disk) {route : Route} (entry : Entry) (below : route ≠ [])
    (other : Route) :
    Disk.entry? (disk.put route entry) other =
      if other = route then some entry else disk.entry? other := by
  by_cases top : other = []
  · subst top
    simp [Disk.entry?, Ne.symm below]
  · have known : (disk.entries.any fun known => known.1 == route) =
        (disk.entries.lookup route).isSome := by
      rw [Bool.eq_iff_iff, List.lookup_isSome_iff, List.any_eq_true]
      simp only [Prod.exists, BEq.comm (a := route)]
    simp only [put, known]
    cases present : disk.entries.lookup route with
    | none =>
      by_cases same : other = route
      · simp [Disk.entry?, below, List.lookup_append, same, present]
      · simp [Disk.entry?, top, List.lookup_append, same, lookup_cons_ite]
    | some old =>
      simp only [Option.isSome_some, if_true, entry?, List.isEmpty_iff, top, if_false,
        lookup_map_replace, present, Option.map_some]

theorem entry?_file_ne_nil {disk : Disk} {route : Route} {content : Content} {access : Access}
    (present : disk.entry? route = some (.file content access)) : route ≠ [] := by
  rintro rfl
  simp [Disk.entry?] at present

theorem SameShape.put {disk : Disk} {route : Route} {content : Content} {access : Access}
    (present : disk.entry? route = some (.file content access)) (other : Content) :
    disk.SameShape (disk.put route (.file other access)) := by
  intro place
  rw [entry?_put disk _ (entry?_file_ne_nil present)]
  split_ifs with here
  · rw [here, present]
    rfl
  · rfl

/-- What a write to a file that is there does. -/
theorem writeText_file {disk after : Disk} {path : Path} {text : String}
    (file : disk.isFile path = true) (written : disk.writeText path text = .ok after) :
    ∃ route content, disk.find path = .ok (.present route (.file content .full)) ∧
      after = disk.put route (.file (.text text) .full) := by
  unfold isFile at file
  split at file
  next route content access found =>
    have full : access = .full ∧ after = disk.put route (.file (.text text) .full) := by
      obtain ⟨_, _, spelled⟩ := bind_eq_ok_iff.mp written
      simp only [found, bind, Except.bind] at spelled
      split at spelled
      · cases spelled
      · cases access with
        | full => exact ⟨rfl, (Except.ok.inj spelled).symm⟩
        | readOnly => cases spelled
        | none => cases spelled
    obtain ⟨rfl, same⟩ := full
    exact ⟨route, content, found, same⟩
  next => cases file

/-- A file with full access can be written. -/
theorem writeText_of_find {disk : Disk} {path : Path} {route : Route} {content : Content}
    (found : disk.find path = .ok (.present route (.file content .full))) (text : String) :
    disk.writeText path text = .ok (disk.put route (.file (.text text) .full)) := by
  obtain ⟨_, spelled, after⟩ := bind_eq_ok_iff.mp found
  have slashless : endsInSlash path = false := by
    obtain ⟨target, _, closed⟩ := bind_eq_ok_iff.mp after
    split at closed
    · split_ifs at closed with slash
      simpa using slash
    · cases closed
      simp_all
  simp [writeText, spelled, slashless, found, bind, Except.bind]

/-- Whether a file can be written depends on the shape of a disk only. -/
theorem SameShape.writeText_ne_ok {disk after written : Disk} (same : disk.SameShape after)
    {path : Path} (file : disk.isFile path = true) {text : String} {error : FileError}
    (failed : after.writeText path text = .error error) (other : String) :
    disk.writeText path other ≠ .ok written := by
  intro succeeded
  obtain ⟨route, content, found, -⟩ := writeText_file file succeeded
  have shape := same.find_hollow path
  rw [found] at shape
  obtain ⟨target, now, hollow⟩ := map_eq_ok_iff.mp shape
  rcases target with ⟨_, _ | _⟩ | _ <;> cases hollow
  cases failed.symm.trans (writeText_of_find now text)

/-- The text of a file is the one that was written to it. -/
theorem readText_writeText {disk after : Disk} {path : Path} {text : String}
    (file : disk.isFile path = true) (written : disk.writeText path text = .ok after) :
    after.readText path = .ok text := by
  obtain ⟨route, content, found, rfl⟩ := writeText_file file written
  have present := find_present found
  have same := SameShape.put present (.text text)
  have now : (disk.put route (.file (.text text) .full)).route? path = some route := by
    rw [same.route?]
    simp [route?, found]
  unfold route? at now
  split at now
  next place entry there =>
    obtain rfl := Option.some.inj now
    have entries := find_present there
    rw [entry?_put disk _ (entry?_file_ne_nil present), if_pos rfl] at entries
    simp only [readText, there, ← Option.some.inj entries, bind, Except.bind]
  next => cases now

/-- A name that is free in a directory has no entry, and the path to it leads to the entry that is
put there. -/
theorem follow_put_vacant {disk : Disk} {start directory : Route} {names : List String}
    {name : String} (found : disk.follow start names = .ok (.vacant directory name))
    (entry : Entry) :
    disk.entry? (directory ++ [name]) = none ∧
      (disk.put (directory ++ [name]) entry).follow start names =
        .ok (.present (directory ++ [name]) entry) := by
  have entries := entry?_put disk entry (List.append_ne_nil_of_right_ne_nil directory
    (List.cons_ne_nil name []))
  induction names generalizing start with
  | nil =>
    unfold follow at found
    split at found <;> cases found
  | cons piece rest ih =>
    rw [follow_cons] at found ⊢
    cases entered : disk.enter start with
    | error error => simp [entered] at found
    | ok _ =>
      simp only [entered] at found
      -- A directory that is entered is there, so it is not the entry that is put.
      have enters (free : disk.entry? (directory ++ [name]) = none) :
          (disk.put (directory ++ [name]) entry).enter start = .ok () := by
        have elsewhere : start ≠ directory ++ [name] := by
          rintro rfl
          simp [enter, free] at entered
        rw [← entered, enter, enter, entries, if_neg elsewhere]
      split_ifs at found with here up long vacant
      · obtain ⟨free, later⟩ := ih found
        exact ⟨free, by simp only [enters free, if_pos here, later]⟩
      · obtain ⟨free, later⟩ := ih found
        exact ⟨free, by simp only [enters free, if_neg here, if_pos up, later]⟩
      · obtain ⟨rfl, rfl⟩ := Target.vacant.inj (Except.ok.inj found)
        obtain ⟨free, rfl⟩ := vacant
        refine ⟨free, ?_⟩
        simp [enters free, here, up, long, entries, follow]
      · obtain ⟨free, later⟩ := ih found
        refine ⟨free, ?_⟩
        have open' : ¬ (Disk.entry? (disk.put (directory ++ [name]) entry) (start ++ [piece]) = none ∧
            rest = []) := by
          rintro ⟨missing, last⟩
          rw [entries] at missing
          split_ifs at missing
          exact vacant ⟨missing, last⟩
        simp only [enters free, if_neg here, if_neg up, if_neg long, if_neg open', later]

/-- The text at a path is the one that was written to it. -/
theorem readText_of_writeText {disk after : Disk} {path : Path} {text : String}
    (written : disk.writeText path text = .ok after) : after.readText path = .ok text := by
  obtain ⟨_, spelled, rest⟩ := bind_eq_ok_iff.mp written
  split_ifs at rest with slash
  · cases rest
  · obtain ⟨target, found, stored⟩ := bind_eq_ok_iff.mp rest
    cases target with
    | present route entry =>
      cases entry with
      | directory access => cases stored
      | file content access =>
        exact readText_writeText (by rw [isFile, found]) written
    | vacant directory name =>
      dsimp only at stored
      split at stored
      · obtain rfl := Except.ok.inj stored
        have there := (follow_put_vacant (follow_of_find found) (.file (.text text) .full)).2
        simp [readText, find, spelled, there, slash, bind, Except.bind]
      · cases stored

theorem isFile_of_readText {disk : Disk} {path : Path} {text : String}
    (read : disk.readText path = .ok text) : disk.isFile path = true := by
  obtain ⟨target, found, content⟩ := bind_eq_ok_iff.mp read
  rw [isFile, found]
  rcases target with ⟨_, _ | access⟩ | _
  · rfl
  · cases access <;> cases content
  · cases content

/-! ## Runs of writes -/

/-- A disk differs from an earlier one in the contents of files at some paths at most. -/
structure ChangesOnly (disk after : Disk) (paths : List Path) : Prop where
  shape : disk.SameShape after
  others : ∀ route, (∀ path ∈ paths, disk.route? path ≠ some route) →
    after.entry? route = disk.entry? route

namespace ChangesOnly

variable {disk middle after : Disk} {paths more : List Path} {path : Path}

theorem refl (disk : Disk) (paths : List Path) : disk.ChangesOnly disk paths :=
  ⟨.refl disk, fun _ _ => rfl⟩

theorem mono (changes : disk.ChangesOnly after paths) (subset : paths ⊆ more) :
    disk.ChangesOnly after more :=
  ⟨changes.shape, fun route apart => changes.others route fun path present =>
    apart path (subset present)⟩

theorem trans (first : disk.ChangesOnly middle paths) (second : middle.ChangesOnly after paths) :
    disk.ChangesOnly after paths where
  shape := first.shape.trans second.shape
  others := by
    intro route apart
    rw [second.others route fun path present => first.shape.route? path ▸ apart path present]
    exact first.others route apart

theorem writeText {text : String} (file : disk.isFile path = true)
    (written : disk.writeText path text = .ok after) : disk.ChangesOnly after [path] := by
  obtain ⟨route, content, found, rfl⟩ := writeText_file file written
  have present := find_present found
  refine ⟨.put present _, fun place apart => ?_⟩
  have elsewhere : place ≠ route := by
    rintro rfl
    exact apart path (List.mem_singleton_self path) (by simp [route?, found])
  rw [entry?_put disk _ (entry?_file_ne_nil present), if_neg elsewhere]

/-- A path that leads to none of the changed files has the text it had. -/
theorem readText (changes : disk.ChangesOnly after paths)
    (apart : ∀ other ∈ paths, ¬ disk.SameFile path other) :
    after.readText path = disk.readText path := by
  refine changes.shape.readText fun route here => changes.others route fun other present there => ?_
  exact apart other present ⟨route, here, there⟩

end ChangesOnly

end Disk

/-- A document in none of the changed files is read as before. -/
theorem Document.load_changesOnly {disk after : Disk} {paths : List Path} {path : Path}
    (changes : disk.ChangesOnly after paths)
    (apart : ∀ other ∈ paths, ¬ disk.SameFile path other) :
    Document.load after path = Document.load disk path := by
  unfold Document.load
  rw [changes.readText apart]

/-- One file is the same document under all its paths. -/
theorem Document.load_sameFile {disk : Disk} {a b : Path} {document : Document}
    (same : disk.SameFile a b) (loaded : Document.load disk a = .ok document) :
    Document.load disk b = .ok document := by
  obtain ⟨text, read, parsed⟩ := bind_eq_ok_iff.mp loaded
  have alsoRead : disk.readText b = .ok text := by
    rw [← mapError_eq_ok_iff.mp read, Disk.readText, Disk.readText, same.find]
  exact bind_eq_ok_iff.mpr
    ⟨text, mapError_eq_ok_iff.mpr alsoRead, mapError_eq_ok_iff.mpr (mapError_eq_ok_iff.mp parsed)⟩

/-- No document can be written to a path. -/
def Document.Unwritable (disk : Disk) (path : Path) : Prop :=
  ∀ document after, Document.save document disk path ≠ .ok after

theorem Document.unwritable_of_save {disk after : Disk} (same : disk.SameShape after) {path : Path}
    (file : disk.isFile path = true) {document : Document} {error : DocumentError}
    (failed : document.save after path = .error error) : Document.Unwritable disk path := by
  intro other written succeeded
  cases refused : after.writeText path document.toFileText with
  | error cause =>
    exact same.writeText_ne_ok file refused other.toFileText (mapError_eq_ok_iff.mp succeeded)
  | ok stored => cases failed.symm.trans (mapError_eq_ok_iff.mpr refused)

theorem Document.isFile_of_load {disk : Disk} {path : Path} {document : Document}
    (loaded : Document.load disk path = .ok document) : disk.isFile path = true := by
  obtain ⟨text, read, _⟩ := bind_eq_ok_iff.mp loaded
  exact Disk.isFile_of_readText (mapError_eq_ok_iff.mp read)

end TemplateLint
