import Mathlib.Data.List.Basic
import VideoCatalog.Proofs.Files.Walk

/-!
# Files that stay where they are

* `FileTree.Settled`: a path leads to a file, in a directory that is there.
* `FileTree.Steady`: nothing that the path goes through is replaced with what it names.
* `FileTree.Extra`: a tree with one file more than another one.
* `FileTree.Moved`: a new file has been moved over what a path names; `Moved.settled` says that it is
  found there if the path is steady, and `Moved.steady_of_find` that nothing is if it is not.
-/

namespace VideoCatalog.FileTree

variable {t t' : FileTree} {p : Path} {content : List UInt8}

/-- A path leads to a file with a content. The directory that holds it can be named, too. -/
structure Settled (t : FileTree) (p : Path) (content : List UInt8) : Prop where
  named : p.text.toList.contains (Char.ofNat 0) = false
  above : p.parent.text.toList.contains (Char.ofNat 0) = false
  found : ∃ d names last modified, p.names = names ++ [last] ∧ last ≠ ".." ∧
    ¬nameLimit < last.utf8ByteSize ∧ Leads t linkLimit (t.startOf p) names d ∧
    t.node? (d ++ [last]) = some (.file content modified)

/-- If the path names a link when its directory is there, the directory can be reached without
that link. A path that leads to a file is steady, and so is one that names nothing when its
directory has been made; a path that goes through the very link it names is not. -/
def Steady (t : FileTree) (p : Path) : Prop :=
  ∀ made, t.makeDirectories p.parent = .ok made →
    ∀ place target, made.find false p = .ok (.present place (.link target)) →
      (made.erase place).find true p.parent = made.find true p.parent

theorem find_of_walk {follow : Bool} {found : Lookup}
    (named : p.text.toList.contains (Char.ofNat 0) = false)
    (looked : t.walk follow linkLimit (t.startOf p) p.names = .ok found) :
    t.find follow p = .ok found := by
  rw [find, named, looked]
  rfl

theorem walk_of_find {follow : Bool} {found : Lookup} (looked : t.find follow p = .ok found) :
    p.text.toList.contains (Char.ofNat 0) = false ∧
      t.walk follow linkLimit (t.startOf p) p.names = .ok found := by
  unfold find at looked
  split at looked
  · cases looked
  · next named =>
    refine ⟨by simpa using named, ?_⟩
    split at looked
    · next found' walked => rw [walked, Except.ok.inj looked]
    · cases looked

theorem startOf_put (t : FileTree) (place : Place) (node : FileNode) (p : Path) :
    (t.put place node).startOf p = t.startOf p := by
  unfold put
  split <;> rfl

theorem startOf_parent (t : FileTree) (p : Path) : t.startOf p.parent = t.startOf p := rfl

theorem names_parent {names : List String} {last : String} (h : p.names = names ++ [last]) :
    p.parent.names = names := by
  simp [Path.parent, h]

/-- A link that a path names has its last name, in the directory that the others lead to. -/
theorem Leads.place_of_link {d place : Place} {names : List String} {last target : String}
    (leads : Leads t linkLimit (t.startOf p) names d) (split : p.names = names ++ [last])
    (link : t.find false p = .ok (.present place (.link target))) :
    last ≠ ".." ∧ ¬nameLimit < last.utf8ByteSize ∧ place = d ++ [last] ∧
      t.node? (d ++ [last]) = some (.link target) := by
  obtain ⟨-, walked⟩ := walk_of_find link
  rw [split] at walked
  obtain ⟨named, short, e, leads', here⟩ := leads_of_last walked (by simp)
  obtain rfl := leads.unique leads'
  rcases here with ⟨absent, -⟩ | ⟨node, same, stands⟩
  · cases absent
  · cases same
    exact ⟨named, short, rfl, stands⟩

/-! ### Directories that are there -/

/-- The directory itself is tried first. -/
theorem makeDirectories_of_ok (ensured : t.ensureDirectory p = .ok t') :
    t.makeDirectories p = .ok t' := by
  obtain ⟨anchor, names⟩ := p
  unfold makeDirectories
  cases reversed : names.reverse with
  | nil =>
    obtain rfl : names = [] := by simpa using reversed
    exact ensured
  | cons name above =>
    have same : (name :: above).reverse = names := by rw [← reversed, List.reverse_reverse]
    simp only [makeNames, same, ensured]

theorem settle_eq_ok {t₀ : FileTree} {changed : Except Failure FileTree}
    (ended : t₀.settle changed = (t, .ok ())) : changed = .ok t := by
  cases changed with
  | error f => simp [settle] at ended
  | ok t₁ => exact congrArg Except.ok (Prod.ext_iff.1 ended).1

/-- What is left of directories that could all be made is what making them gives. -/
theorem madeDirectories_of_ok (made : t.makeDirectories p = .ok t') :
    t.madeDirectories p = t' := by
  obtain ⟨anchor, names⟩ := p
  unfold makeDirectories at made
  unfold madeDirectories
  dsimp only at made ⊢
  cases reversed : names.reverse with
  | nil =>
    rw [reversed] at made
    have made : t.ensureDirectory ⟨anchor, []⟩ = .ok t' := made
    simp [madeNames, settle, made]
  | cons name above =>
    rw [reversed] at made
    simp only [makeNames] at made
    simp only [madeNames]
    split at made
    · next ensured => simpa [ensured] using made
    · next f ensured =>
      split at made
      · next missing =>
        rw [if_pos missing]
        split at made
        · cases made
        · simp only [settle, made]
      · cases made

theorem makeDirectories_of_error {f : Failure} (refused : t.ensureDirectory p = .error f)
    (other : f ≠ .file .missing p.text) : t.makeDirectories p = .error f := by
  obtain ⟨anchor, names⟩ := p
  unfold makeDirectories
  cases reversed : names.reverse with
  | nil =>
    obtain rfl : names = [] := by simpa using reversed
    exact refused
  | cons name above =>
    have same : (name :: above).reverse = names := by rw [← reversed, List.reverse_reverse]
    simp [makeNames, same, refused, other]

/-- A path with a zero character names no directory. -/
theorem named_of_makeDirectories (made : t.makeDirectories p = .ok t') :
    p.text.toList.contains (Char.ofNat 0) = false := by
  by_contra zero
  have refused (follow : Bool) : t.find follow p = .error .zeroCharacter := by
    rw [find, if_pos (by simpa using zero)]
  have directory : t.isDirectory? p = .ok false := by
    rw [isDirectory?, ask, located, refused]
    rfl
  have failed : t.ensureDirectory p = .error .zeroCharacter := by
    rw [ensureDirectory, makeDirectory, refused]
    simp [directory]
  rw [makeDirectories_of_error failed (by simp)] at made
  cases made

/-- Directories that are there are left alone. -/
theorem makeDirectories_of_leads {d : Place}
    (named : p.text.toList.contains (Char.ofNat 0) = false)
    (leads : Leads t linkLimit (t.startOf p) p.names d) : t.makeDirectories p = .ok t := by
  obtain ⟨place, node, there⟩ := leads.unfollowed
  have taken : t.makeDirectory p = .error (.file .alreadyThere p.text) := by
    rw [makeDirectory, find_of_walk named there]
  have directory : t.isDirectory? p = .ok true := by
    rw [isDirectory?, ask, located, find_of_walk named leads.walk]
    rfl
  refine makeDirectories_of_ok ?_
  rw [ensureDirectory, taken]
  simp [directory]

/-! ### Files that are there -/

theorem Settled.find (settled : Settled t p content) (follow : Bool) :
    ∃ place modified, t.find follow p = .ok (.present place (.file content modified)) := by
  obtain ⟨d, names, last, modified, split, named, short, leads, stands⟩ := settled.found
  refine ⟨d ++ [last], modified, find_of_walk settled.named ?_⟩
  rw [split]
  exact leads.walk_file named short stands

theorem Settled.exists? (settled : Settled t p content) : t.exists? p = .ok true := by
  obtain ⟨place, modified, found⟩ := settled.find true
  rw [FileTree.exists?, ask, located, found]

theorem Settled.read (settled : Settled t p content) : t.read p = .ok content := by
  obtain ⟨place, modified, found⟩ := settled.find true
  rw [FileTree.read, state, located, found]
  rfl

/-- A file with the bytes of a text is read as that text. -/
theorem readText_of_read {text : String} (read : t.read p = .ok (Text.encode text)) :
    t.readText p = .ok text := by
  rw [readText, read]
  simp only [Text.decode?_encode]

/-- A path that leads to a file names no link. -/
theorem Settled.steady (settled : Settled t p content) : Steady t p := by
  intro made same place target link
  obtain ⟨d, names, last, modified, split, -, -, leads, -⟩ := settled.found
  rw [← names_parent split, ← startOf_parent] at leads
  rw [makeDirectories_of_leads settled.above leads] at same
  obtain rfl : t = made := Except.ok.inj same
  obtain ⟨_, _, found⟩ := settled.find false
  rw [found] at link
  cases link

/-- What can be read is a file. -/
theorem find_of_read (read : t.read p = .ok content) :
    ∃ place modified, t.find true p = .ok (.present place (.file content modified)) := by
  unfold FileTree.read state located at read
  cases found : t.find true p with
  | error f => simp [found, Except.map] at read
  | ok lookup =>
    cases lookup with
    | absent place => simp [found, Except.map] at read
    | present place node =>
      rw [found] at read
      cases node with
      | file content' modified =>
        obtain rfl : content' = content := Except.ok.inj read
        exact ⟨place, modified, rfl⟩
      | directory | link _ => cases read

/-- The way to a file, or to a place where nothing is, stays when a file is put there. -/
theorem Walks.put_file {links : Nat} {here place : Place} {names : List String} {found : Lookup}
    (walks : Walks t true links here names found) (below : place ≠ [])
    (ends : found = .absent place ∨ ∃ c m, found = .present place (.file c m))
    (unneeded : ∀ node, t.node? place = some node → ∃ c m, node = .file c m)
    (content : List UInt8) (modified : Binary64) :
    Walks (t.put place (.file content modified)) true links here names
      (.present place (.file content modified)) := by
  have put := node?_put (t := t) below (.file content modified)
  have passed {other : Place} {node : FileNode} (stands : t.node? other = some node)
      (through : ∀ c m, node ≠ .file c m) :
      (t.put place (.file content modified)).node? other = some node := by
    rw [put, if_neg, stands]
    rintro rfl
    obtain ⟨c, m, file⟩ := unneeded node stands
    exact through c m file
  have last : (t.put place (.file content modified)).node? place =
      some (.file content modified) := by rw [put, if_pos rfl]
  induction walks with
  | stop => simp at ends
  | up _ ih => exact .up (ih ends)
  | free named short _ =>
    obtain rfl : _ = place := by simpa using ends
    exact .file named short last
  | down named short stands _ ih =>
    exact .down named short (passed stands (by simp)) (ih ends)
  | file named short _ =>
    obtain rfl : _ = place := by simpa using ends
    exact .file named short last
  | link unfollowed => cases unfollowed
  | across named short stands further _ ih =>
    exact .across named short (passed stands (by simp)) further (ih ends)

/-- A file is read as it was written. -/
theorem read_of_write {now : Binary64} (written : t.write p content now = .ok t') :
    t'.read p = .ok content := by
  have target : ∃ place found, t.find true p = .ok found ∧
      (found = .absent place ∨ ∃ c m, found = .present place (.file c m)) ∧
      t' = t.put place (.file content now) := by
    unfold FileTree.write at written
    split at written
    · cases written
    · next place looked => exact ⟨place, _, looked, .inl rfl, (Except.ok.inj written).symm⟩
    · next place c m looked =>
      exact ⟨place, _, looked, .inr ⟨c, m, rfl⟩, (Except.ok.inj written).symm⟩
    · cases written
  obtain ⟨place, found, looked, ends, rfl⟩ := target
  obtain ⟨zero, walked⟩ := walk_of_find looked
  have walks := walks_of_walk walked
  obtain ⟨below, unneeded⟩ : place ≠ [] ∧
      ∀ node, t.node? place = some node → ∃ c m, node = .file c m := by
    rcases ends with rfl | ⟨c, m, rfl⟩
    · obtain ⟨below, free⟩ := free_of_walks walks rfl
      exact ⟨below, by simp [free]⟩
    · have stands := stands_of_walks walks rfl (by simp)
      refine ⟨?_, fun node same => ⟨c, m, Option.some.inj (same.symm.trans stands)⟩⟩
      rintro rfl
      cases stands
  have there : (t.put place (.file content now)).find true p =
      .ok (.present place (.file content now)) := by
    refine find_of_walk zero ?_
    rw [startOf_put]
    exact (walks.put_file below ends unneeded content now).walk
  rw [FileTree.read, state, located, there]
  rfl

/-! ### A new file in the place of an old one -/

/-- A file that is made stands in the directory above it. -/
theorem create_spec {directory : Path} {name : String} {now : Binary64}
    (made : t.create (directory.child name) content now = .ok t') :
    ∃ d, Leads t linkLimit (t.startOf directory) directory.names d ∧ name ≠ ".." ∧
      ¬nameLimit < name.utf8ByteSize ∧
      t.find false (directory.child name) = .ok (.absent (d ++ [name])) ∧
      t.node? (d ++ [name]) = none ∧ t' = t.put (d ++ [name]) (.file content now) := by
  unfold create at made
  split at made
  · cases made
  · cases made
  · next place absent =>
    have looked : t.walk false linkLimit (t.startOf directory) (directory.names ++ [name]) =
        .ok (.absent place) := (walk_of_find absent).2
    obtain ⟨named, short, d, leads, there | ⟨node, there, -⟩⟩ := leads_of_last looked (by simp)
    · cases there.1
      exact ⟨d, leads, named, short, absent, there.2, (Except.ok.inj made).symm⟩
    · cases there

/-- A file that is moved stands in the place of the file or the link that was there, and the
names before its last one lead to a directory. -/
theorem replace_spec {source : Path} {origin : Place} {node : FileNode}
    (origin_at : t.find false source = .ok (.present origin node))
    (moved : t.replace source p = .ok t') :
    ∃ d names last, p.names = names ++ [last] ∧ last ≠ ".." ∧ ¬nameLimit < last.utf8ByteSize ∧
      p.text.toList.contains (Char.ofNat 0) = false ∧ Leads t linkLimit (t.startOf p) names d ∧
      t.node? (d ++ [last]) ≠ some .directory ∧
      t' = (t.erase origin).put (d ++ [last]) node := by
  have target : ∃ place found, t.find false p = .ok found ∧
      (∀ d, found ≠ .present d .directory) ∧
      (found = .absent place ∨ ∃ old, found = .present place old) ∧
      t' = (t.erase origin).put place node := by
    unfold replace located at moved
    rw [origin_at] at moved
    dsimp only at moved
    split at moved
    · cases moved
    · next place looked =>
      exact ⟨place, _, looked, by simp, .inl rfl, (Except.ok.inj moved).symm⟩
    · cases moved
    · next place old other looked =>
      refine ⟨place, _, looked, fun d same => ?_, .inr ⟨old, rfl⟩, (Except.ok.inj moved).symm⟩
      cases same
      exact other rfl
  obtain ⟨place, found, looked, inside, stands, moved⟩ := target
  obtain ⟨zero, looked⟩ := walk_of_find looked
  rcases List.eq_nil_or_concat' p.names with hnone | ⟨names, last, split⟩
  · rw [hnone, walk_nil] at looked
    exact absurd (Except.ok.inj looked).symm (inside _)
  · rw [split] at looked
    obtain ⟨named, short, d, leads, there⟩ := leads_of_last looked inside
    refine ⟨d, names, last, split, named, short, zero, leads, ?_, ?_⟩
    · rcases there with ⟨-, free⟩ | ⟨node, rfl, taken⟩
      · rw [free]
        simp
      · rw [taken]
        rintro same
        exact inside _ (by rw [Option.some.inj same])
    · rw [moved]
      rcases stands with rfl | ⟨old, rfl⟩ <;> rcases there with ⟨there, -⟩ | ⟨_, there, -⟩ <;>
        cases there <;> rfl

/-- Names that do not need what is at a place lead on when a file is put there. -/
theorem Leads.put_file {links : Nat} {here d place : Place} {names : List String}
    (leads : Leads t links here names d) (content : List UInt8) (modified : Binary64)
    (below : place ≠ [])
    (unneeded : ∀ node, t.node? place = some node → ∃ c m, node = .file c m) :
    Leads (t.put place (.file content modified)) links here names d := by
  refine leads.congr fun other node stands passed => ?_
  by_cases same : other = place
  · subst same
    obtain ⟨c, m, file⟩ := unneeded node stands
    exact absurd file (passed c m)
  · rw [node?_put below, if_neg same, stands]

/-- A tree is another one with a file more, which a path names. -/
structure Extra (base t : FileTree) (p : Path) (place : Place) (content : List UInt8)
    (modified : Binary64) : Prop where
  below : place ≠ []
  free : base.node? place = none
  found : ∀ follow, t.find follow p = .ok (.present place (.file content modified))
  node : ∀ other, t.node? other =
    if other = place then some (.file content modified) else base.node? other
  start : ∀ q, t.startOf q = base.startOf q

/-- A file that is made in a directory is all that is new. -/
theorem extra_of_create {directory : Path} {name : String} {now : Binary64}
    (created : t.create (directory.child name) content now = .ok t') :
    ∃ place, t.find false (directory.child name) = .ok (.absent place) ∧
      Extra t t' (directory.child name) place content now := by
  obtain ⟨d, leads, named, short, absent, free, rfl⟩ := create_spec created
  have below : d ++ [name] ≠ [] := by simp
  have leads' := leads.put_file content now below (by simp [free])
  have zero := (walk_of_find absent).1
  refine ⟨d ++ [name], absent, below, free, fun follow => find_of_walk zero ?_, fun other => ?_,
    fun q => startOf_put _ _ _ q⟩
  · rw [startOf_put]
    exact leads'.walk_file named short (by rw [node?_put below, if_pos rfl])
  · rw [node?_put below]

/-- It stays so when the file is filled. -/
theorem Extra.write {base : FileTree} {place : Place} {first : List UInt8}
    {before now : Binary64} (extra : Extra base t p place first before)
    (written : t.write p content now = .ok t') : Extra base t' p place content now := by
  have filled : t.put place (.file content now) = t' := by
    rw [FileTree.write, extra.found] at written
    exact Except.ok.inj written
  have stands : t.node? place = some (.file first before) := by rw [extra.node, if_pos rfl]
  subst filled
  refine ⟨extra.below, extra.free, fun follow => ?_, fun other => ?_, fun q => ?_⟩
  · obtain ⟨zero, walked⟩ := walk_of_find (extra.found false)
    rcases List.eq_nil_or_concat' p.names with hnone | ⟨names, last, split⟩
    · rw [hnone, walk_nil] at walked
      cases walked
    · rw [split] at walked
      obtain ⟨named, short, d, leads, ⟨absent, -⟩ | ⟨node, same, -⟩⟩ :=
        leads_of_last walked (by simp)
      · cases absent
      · cases same
        refine find_of_walk zero ?_
        rw [startOf_put, split]
        exact (leads.put_file content now extra.below (by simp [stands])).walk_file named short
          (by rw [node?_put extra.below, if_pos rfl])
  · rw [node?_put extra.below, extra.node]
    split <;> rfl
  · rw [startOf_put, extra.start]

/-- A file has been made in a tree, filled, and moved over what a path names: it stands there, the
names before the last one lead there without it, and nothing else has changed. -/
structure Moved (made t₂ t₃ : FileTree) (p : Path) (content : List UInt8) (now : Binary64)
    (c d : Place) (names : List String) (last : String) : Prop where
  split : p.names = names ++ [last]
  named : last ≠ ".."
  short : ¬nameLimit < last.utf8ByteSize
  zero : p.text.toList.contains (Char.ofNat 0) = false
  free : made.node? c = none
  leads : Leads t₂ linkLimit (t₂.startOf p) names d
  old : t₂.node? (d ++ [last]) ≠ some .directory
  before : ∀ place, t₂.node? place =
    if place = c then some (.file content now) else made.node? place
  after : ∀ place, t₃.node? place = if place = d ++ [last] then some (.file content now)
    else if place = c then none else t₂.node? place
  start : ∀ q, t₂.startOf q = made.startOf q
  start' : t₃.startOf p = t₂.startOf p

theorem moved_of_replace {made t₂ t₃ : FileTree} {source : Path} {c : Place} {now : Binary64}
    (extra : Extra made t₂ source c content now) (moved : t₂.replace source p = .ok t₃) :
    ∃ d names last, Moved made t₂ t₃ p content now c d names last := by
  obtain ⟨below, free, found, node₂, start₂⟩ := extra
  obtain ⟨d, names, last, split, named, short, zero, leads, old, rfl⟩ :=
    replace_spec (found false) moved
  refine ⟨d, names, last, split, named, short, zero, free, leads, old, node₂, fun place => ?_,
    start₂, ?_⟩
  · rw [node?_put (by simp), node?_erase below]
  · rw [startOf_put]
    rfl

/-- The names before the last one lead to the same directory before the file was made. -/
theorem Moved.leads_made {made t₂ t₃ : FileTree} {now : Binary64} {c d : Place}
    {names : List String} {last : String} (moved : Moved made t₂ t₃ p content now c d names last) :
    Leads made linkLimit (made.startOf p) names d := by
  rw [← moved.start]
  refine moved.leads.congr fun place node stands passed => ?_
  rw [moved.before] at stands
  split at stands
  · exact absurd (Option.some.inj stands).symm (passed _ _)
  · exact stands

/-- If the path leads anywhere afterwards, the link that it named was not needed: the way passes no
file, and nothing but files has changed. -/
theorem Moved.steady_of_find {made t₂ t₃ : FileTree} {now : Binary64} {c d : Place}
    {names : List String} {last : String} (moved : Moved made t₂ t₃ p content now c d names last)
    (above : p.parent.text.toList.contains (Char.ofNat 0) = false) {found : Lookup}
    (looked : t₃.find true p = .ok found) {place : Place} {target : String}
    (link : made.find false p = .ok (.present place (.link target))) :
    (made.erase place).find true p.parent = made.find true p.parent := by
  have leads := moved.leads_made
  obtain ⟨-, -, rfl, -⟩ := leads.place_of_link moved.split link
  obtain ⟨-, later⟩ := walk_of_find looked
  rw [moved.split] at later
  obtain ⟨e, onward⟩ := leads_of_append (.inl (List.cons_ne_nil last [])) later
  have without : Leads (made.erase (d ++ [last])) linkLimit (made.startOf p) names e := by
    rw [← moved.start, ← moved.start']
    refine onward.congr fun other node stands passed => ?_
    rw [moved.after] at stands
    split at stands
    · exact absurd (Option.some.inj stands).symm (passed _ _)
    · next apart =>
      split at stands
      · cases stands
      · next old =>
        rw [node?_erase (by simp), if_neg apart, ← stands, moved.before, if_neg old]
  have kept : Leads made linkLimit (made.startOf p) names e := by
    refine without.congr fun other node stands _ => ?_
    rw [node?_erase (by simp)] at stands
    split at stands
    · cases stands
    · exact stands
  obtain rfl := leads.unique kept
  rw [← names_parent moved.split] at leads without
  rw [find_of_walk above without.walk, find_of_walk above leads.walk]

/-- The way to a file that was replaced passes neither that file nor the temporary one. -/
theorem Moved.leads_of_unlinked {made t₂ t₃ : FileTree} {now : Binary64} {c d : Place}
    {names : List String} {last : String} (moved : Moved made t₂ t₃ p content now c d names last)
    (unlinked : ∀ target, t₂.node? (d ++ [last]) ≠ some (.link target)) :
    Leads t₃ linkLimit (t₃.startOf p) names d := by
  obtain ⟨-, -, -, -, -, leads, old, node₂, node₃, -, start₃⟩ := moved
  rw [start₃]
  refine leads.congr fun place node stands passed => ?_
  have other : place ≠ d ++ [last] := by
    rintro rfl
    cases node with
    | directory => exact old stands
    | file content modified => exact passed _ _ rfl
    | link target => exact unlinked target stands
  have apart : place ≠ c := by
    rintro rfl
    rw [node₂, if_pos rfl] at stands
    exact passed _ _ (Option.some.inj stands).symm
  rw [node₃, if_neg other, if_neg apart, stands]

/-- The way to a link that was replaced is still there if it can do without that link. -/
theorem Moved.leads_of_link {made t₂ t₃ : FileTree} {now : Binary64} {c d : Place}
    {names : List String} {last : String} (moved : Moved made t₂ t₃ p content now c d names last)
    (above : p.parent.text.toList.contains (Char.ofNat 0) = false)
    (steady : ∀ place target, made.find false p = .ok (.present place (.link target)) →
      (made.erase place).find true p.parent = made.find true p.parent) {target : String}
    (link : t₂.node? (d ++ [last]) = some (.link target)) :
    Leads t₃ linkLimit (t₃.startOf p) names d := by
  have leads₀ := moved.leads_made
  obtain ⟨split, named, short, zero, free, -, -, node₂, node₃, start₂, start₃⟩ := moved
  have apart : d ++ [last] ≠ c := by
    intro same
    rw [node₂, if_pos same] at link
    cases link
  have link₀ : made.find false p = .ok (.present (d ++ [last]) (.link target)) := by
    refine find_of_walk zero ?_
    rw [split]
    rw [node₂, if_neg apart] at link
    exact leads₀.walk_last named short link
  have reached : (made.erase (d ++ [last])).find true p.parent = .ok (.present d .directory) := by
    rw [steady _ _ link₀]
    refine find_of_walk above ?_
    rw [names_parent split]
    exact leads₀.walk
  have without := leads_of_walk (walk_of_find reached).2
  rw [names_parent split] at without
  rw [start₃, start₂]
  refine without.congr fun place node stands passed => ?_
  rw [node?_erase (by simp)] at stands
  split at stands
  · cases stands
  · next other =>
    have new : place ≠ c := by
      rintro rfl
      rw [free] at stands
      cases stands
    rw [node₃, if_neg other, if_neg new, node₂, if_neg new, stands]

/-- It is what the path leads to if nothing that the path goes through was replaced. -/
theorem Moved.settled {made t₂ t₃ : FileTree} {now : Binary64} {c d : Place} {names : List String}
    {last : String} (moved : Moved made t₂ t₃ p content now c d names last)
    (above : p.parent.text.toList.contains (Char.ofNat 0) = false)
    (steady : ∀ place target, made.find false p = .ok (.present place (.link target)) →
      (made.erase place).find true p.parent = made.find true p.parent) : Settled t₃ p content := by
  have leads : Leads t₃ linkLimit (t₃.startOf p) names d := by
    by_cases link : ∃ target, t₂.node? (d ++ [last]) = some (.link target)
    · obtain ⟨target, link⟩ := link
      exact moved.leads_of_link above steady link
    · exact moved.leads_of_unlinked fun target stands => link ⟨target, stands⟩
  exact ⟨moved.zero, above, d, names, last, now, moved.split, moved.named, moved.short, leads,
    by rw [moved.after, if_pos rfl]⟩

end VideoCatalog.FileTree
