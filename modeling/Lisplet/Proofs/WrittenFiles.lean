import Lisplet.Primitive.InputOutput
import Lisplet.Proofs.Outcomes

/-!
# Files that are written

A written file and the two stages in front of it hold the bytes that were written, in order, however the
bytes are passed on; closing the stream leaves all of them in the file. Writing changes the content of one
file and makes no directory, so a path that led to the file when it was opened for writing leads there when
it is opened for reading.
-/

namespace Lisplet

namespace FileTree

/-! ### Contents -/

/-- Looking a file up among files of which one has a new content. -/
theorem lookup_map_replace (files : List (Location × Bytes)) (place other : Location) (bytes : Bytes) :
    (files.map fun (p, old) => (p, if p = place then bytes else old)).lookup other =
      (files.lookup other).map fun old => if other = place then bytes else old := by
  induction files with
  | nil => rfl
  | cons file files ih =>
    obtain ⟨p, old⟩ := file
    rw [List.map_cons, List.lookup_cons, List.lookup_cons, ih]
    by_cases hp : other = p
    · simp [hp]
    · have hne : (other == p) = false := beq_eq_false_iff_ne.mpr hp
      simp [hne]

/-- A file that was written has its new content, and every other file keeps its own. -/
theorem content?_write (tree : FileTree) (place other : Location) (bytes : Bytes) :
    (tree.write place bytes).content? other =
      if other = place then some bytes else tree.content? other := by
  unfold write
  split
  next hsome =>
    rw [content?, lookup_map_replace]
    by_cases hother : other = place
    · obtain ⟨old, hold⟩ := Option.isSome_iff_exists.mp hsome
      rw [content?] at hold
      simp [hother, hold]
    · simp [hother, content?]
  next hnone =>
    have hplace : tree.files.lookup place = none := Option.not_isSome_iff_eq_none.mp hnone
    rw [content?, List.lookup_append]
    by_cases hother : other = place
    · simp [hother, hplace]
    · have hne : (other == place) = false := beq_eq_false_iff_ne.mpr hother
      simp [hother, content?, List.lookup_cons, hne]

/-- Another content of one file, and nothing else. -/
structure Rewrites (place : Location) (tree tree' : FileTree) : Prop where
  directories : tree'.directories = tree.directories
  home : tree'.home = tree.home
  userHomes : tree'.userHomes = tree.userHomes
  exists_content : (tree'.content? place).isSome = true
  content?_of_ne : ∀ other, other ≠ place → tree'.content? other = tree.content? other

theorem Rewrites.refl {tree : FileTree} {place : Location} (h : (tree.content? place).isSome = true) :
    Rewrites place tree tree := ⟨rfl, rfl, rfl, h, fun _ _ => rfl⟩

theorem rewrites_write (tree : FileTree) (place : Location) (bytes : Bytes) :
    Rewrites place tree (tree.write place bytes) := by
  have hrest : (tree.write place bytes).directories = tree.directories ∧
      (tree.write place bytes).home = tree.home ∧
      (tree.write place bytes).userHomes = tree.userHomes := by
    unfold write
    split <;> exact ⟨rfl, rfl, rfl⟩
  refine ⟨hrest.1, hrest.2.1, hrest.2.2, ?_, fun other hne => ?_⟩
  · rw [content?_write, if_pos rfl]
    rfl
  · rw [content?_write, if_neg hne]

theorem Rewrites.trans {place : Location} {tree tree' tree'' : FileTree} (h : Rewrites place tree tree')
    (h' : Rewrites place tree' tree'') : Rewrites place tree tree'' where
  directories := h'.directories.trans h.directories
  home := h'.home.trans h.home
  userHomes := h'.userHomes.trans h.userHomes
  exists_content := h'.exists_content
  content?_of_ne other hne := (h'.content?_of_ne other hne).trans (h.content?_of_ne other hne)

/-! ### Paths -/

/-- Names that led to a file, or to where one may be made, lead to it when it has been written. -/
theorem Rewrites.follow {place : Location} {tree tree' : FileTree} (h : Rewrites place tree tree')
    {names : List Bytes} {start : Location}
    (hfollow : tree.follow start names = .file place ∨ tree.follow start names = .vacant place) :
    tree'.follow start names = .file place := by
  induction names generalizing start with
  | nil => rcases hfollow with h | h <;> cases h
  | cons name more ih =>
    rw [FileTree.follow] at hfollow ⊢
    split
    next hname =>
      rw [if_pos hname] at hfollow
      exact ih hfollow
    next hname =>
      rw [if_neg hname] at hfollow
      split
      next hlong =>
        rw [if_pos hlong] at hfollow
        rcases hfollow with h | h <;> cases h
      next hlong =>
        rw [if_neg hlong] at hfollow
        dsimp only at hfollow ⊢
        have hdirectory : tree'.isDirectory (start ++ [name]) = tree.isDirectory (start ++ [name]) := by
          rw [isDirectory, isDirectory, h.directories]
        rw [hdirectory]
        split
        next hdir =>
          rw [if_pos hdir] at hfollow
          exact ih hfollow
        next hdir =>
          rw [if_neg hdir] at hfollow
          rcases more with _ | ⟨next, more⟩
          -- The last name leads to the file or to where it may be made: both are the place that is written.
          · have hplace : start ++ [name] = place := by
              split at hfollow <;> rcases hfollow with h | h <;> cases h <;> rfl
            rw [hplace, if_pos h.exists_content]
            rfl
          · split at hfollow <;> rcases hfollow with h | h <;> cases h

theorem Rewrites.find {place : Location} {tree tree' : FileTree} (h : Rewrites place tree tree')
    {path : Path} (hfind : tree.find path = .ok (.file place) ∨ tree.find path = .ok (.vacant place)) :
    tree'.find path = .ok (.file place) := by
  unfold FileTree.find at hfind ⊢
  dsimp only at hfind ⊢
  rw [h.home]
  cases hnames : encodedNames (tree.home.within path).names with
  | error fault =>
    rw [hnames] at hfind
    rcases hfind with h | h <;> cases h
  | ok names =>
    rw [hnames] at hfind
    simp only [bind, Except.bind, pure, Except.pure] at hfind ⊢
    split
    next hlong =>
      rw [if_pos hlong] at hfind
      rcases hfind with h | h <;> cases h
    next hlong =>
      rw [if_neg hlong, Except.ok.injEq, Except.ok.injEq] at hfind
      rw [h.follow hfind]

/-- A path means the same when a file has another content. -/
theorem Rewrites.pathIn {place : Location} {tree tree' : FileTree} (h : Rewrites place tree tree')
    (directory : Path) (t : Text) : tree'.pathIn directory t = tree.pathIn directory t := by
  have hhome : tree'.homeOf = tree.homeOf := by
    funext user
    rw [homeOf, homeOf, h.home, h.userHomes]
  rw [FileTree.pathIn, FileTree.pathIn, expandHome, expandHome, hhome]

/-- What opening for writing finds is made empty. -/
theorem openForWriting_cases {tree made : FileTree} {path : Path} {place : Location}
    (hopen : tree.openForWriting path = .ok (place, made)) :
    (tree.find path = .ok (.file place) ∨ tree.find path = .ok (.vacant place)) ∧
      made = tree.write place [] := by
  unfold openForWriting at hopen
  split at hopen
  next => cases hopen
  next hfound => cases hopen; exact ⟨Or.inl hfound, rfl⟩
  next hfound => cases hopen; exact ⟨Or.inr hfound, rfl⟩
  next => cases hopen
  next => cases hopen

theorem rewrites_of_openForWriting {tree made : FileTree} {path : Path} {place : Location}
    (hopen : tree.openForWriting path = .ok (place, made)) : Rewrites place tree made :=
  (openForWriting_cases hopen).2 ▸ rewrites_write tree place []

/-- A path that was opened for writing is opened for reading. -/
theorem Rewrites.openForReading {place : Location} {tree tree' made : FileTree} {path : Path}
    (h : Rewrites place made tree') (hopen : tree.openForWriting path = .ok (place, made)) :
    tree'.openForReading path = .ok place := by
  have hfind := ((rewrites_of_openForWriting hopen).trans h).find (openForWriting_cases hopen).1
  rw [FileTree.openForReading, hfind]

/-- A file that was opened for writing is empty. -/
theorem content?_of_openForWriting {tree made : FileTree} {path : Path} {place : Location}
    (hopen : tree.openForWriting path = .ok (place, made)) : made.content? place = some [] := by
  rw [(openForWriting_cases hopen).2, content?_write, if_pos rfl]

/-! ### Bytes at the end of a file -/

theorem rewrites_writeAt (tree : FileTree) (place : Location) (position : Nat) (bytes : Bytes) :
    Rewrites place tree (tree.writeAt place position bytes) := rewrites_write tree place _

/-- Bytes that are written from the end of a file on are put behind its content. -/
theorem content?_writeAt_end {tree : FileTree} {place : Location} {front : Bytes}
    (h : tree.content? place = some front) (bytes : Bytes) :
    (tree.writeAt place front.length bytes).content? place = some (front ++ bytes) := by
  rw [writeAt, h, content?_write, if_pos rfl]
  simp

end FileTree

namespace Stream

/-! ### The stages in front of a file -/

/-- The bytes written to a file so far, which it and the two stages in front of it hold in order. The file
ends where the next bytes go. -/
def Gathers (tree : FileTree) (place : Location) (position : Nat) (outer inner written : Bytes) : Prop :=
  ∃ front, tree.content? place = some front ∧ front.length = position ∧ front ++ outer ++ inner = written

/-- Passing the bytes of the inner stage on keeps the bytes written so far. -/
theorem Gathers.pass {tree : FileTree} {place : Location} {position : Nat} {outer inner written : Bytes}
    (h : Gathers tree place position outer inner written) :
    ∃ tree' position' outer', Stream.pass tree place position outer inner = (tree', position', outer') ∧
      Gathers tree' place position' outer' [] written ∧ tree.Rewrites place tree' := by
  obtain ⟨front, hcontent, rfl, rfl⟩ := h
  have hsome : (tree.content? place).isSome = true := by rw [hcontent]; rfl
  unfold Stream.pass
  split
  next => exact ⟨_, _, _, rfl, ⟨front, hcontent, rfl, by simp⟩, .refl hsome⟩
  next =>
    have houter := FileTree.content?_writeAt_end hcontent outer
    have hposition : front.length + outer.length = (front ++ outer).length := by simp
    dsimp only
    rw [hposition]
    split
    next =>
      exact ⟨_, _, _, rfl, ⟨_, FileTree.content?_writeAt_end houter inner, List.length_append, by simp⟩,
        (tree.rewrites_writeAt place _ _).trans (FileTree.rewrites_writeAt _ place _ _)⟩
    next => exact ⟨_, _, _, rfl, ⟨_, houter, by simp, by simp⟩, tree.rewrites_writeAt place _ _⟩

/-- Bytes that wait in the inner stage are written. -/
theorem Gathers.append {tree : FileTree} {place : Location} {position : Nat} {outer inner written : Bytes}
    (h : Gathers tree place position outer inner written) (bytes : Bytes) :
    Gathers tree place position outer (inner ++ bytes) (written ++ bytes) := by
  obtain ⟨front, hcontent, hlength, rfl⟩ := h
  exact ⟨front, hcontent, hlength, by simp only [List.append_assoc]⟩

/-- Writing a text puts its bytes behind the bytes written so far. -/
theorem Gathers.write {tree : FileTree} {place : Location} {position : Nat}
    {outer inner written bytes : Bytes} {t : Text}
    (h : Gathers tree place position outer inner written) (hbytes : Utf8.encode? t = some bytes) :
    ∃ tree' position' outer' inner',
      Stream.write tree (.fileSink place position outer inner) t =
        .ok (.fileSink place position' outer' inner', tree') ∧
      Gathers tree' place position' outer' inner' (written ++ bytes) ∧ tree.Rewrites place tree' := by
  have hsome : (tree.content? place).isSome = true := by
    obtain ⟨front, hcontent, -⟩ := h
    rw [hcontent]
    rfl
  -- The inner buffer may be passed on before the text is added, and again behind it.
  obtain ⟨tree₀, position₀, outer₀, hpass₀, hgathers₀, hrewrites₀⟩ := h.pass
  have hinner : ∃ tree' position' outer' inner',
      (if !inner.isEmpty && innerCapacity < inner.length + bytes.length then
        (tree₀, position₀, outer₀, bytes)
      else (tree, position, outer, inner ++ bytes)) = (tree', position', outer', inner') ∧
      Gathers tree' place position' outer' inner' (written ++ bytes) ∧ tree.Rewrites place tree' := by
    split
    · exact ⟨_, _, _, _, rfl, hgathers₀.append bytes, hrewrites₀⟩
    · exact ⟨_, _, _, _, rfl, h.append bytes, .refl hsome⟩
  obtain ⟨tree₁, position₁, outer₁, inner₁, hstage, hgathers, hrewrites⟩ := hinner
  rw [Stream.write, hbytes]
  simp only [hpass₀, hstage]
  split
  · obtain ⟨tree₂, position₂, outer₂, hpass, hgathers', hrewrites'⟩ := hgathers.pass
    exact ⟨_, _, _, _, by rw [hpass], hgathers', hrewrites.trans hrewrites'⟩
  · exact ⟨_, _, _, _, rfl, hgathers, hrewrites⟩

/-- When a stream is closed, its file holds the bytes written to it. -/
theorem Gathers.flush {tree : FileTree} {place : Location} {position : Nat} {outer inner written : Bytes}
    (h : Gathers tree place position outer inner written) :
    (Stream.flush tree (.fileSink place position outer inner)).content? place = some written ∧
      tree.Rewrites place (Stream.flush tree (.fileSink place position outer inner)) := by
  obtain ⟨front, hcontent, rfl, rfl⟩ := h
  unfold Stream.flush
  dsimp only
  split
  next hempty =>
    obtain ⟨houter, hinner⟩ := Bool.and_eq_true_iff.mp hempty
    rw [List.isEmpty_iff.mp houter, List.isEmpty_iff.mp hinner, hcontent]
    exact ⟨by simp, .refl (by rw [hcontent]; rfl)⟩
  next =>
    rw [FileTree.content?_writeAt_end hcontent, List.append_assoc]
    exact ⟨rfl, tree.rewrites_writeAt place _ _⟩

end Stream

/-! ### Opening -/

/-- The file that a path leads to in a direction, and the files when it has been opened. -/
def FileTree.openIn (tree : FileTree) (path : Path) : Direction → Except OpenRefusal (Location × FileTree)
  | .input => (tree.openForReading path).map fun place => (place, tree)
  | .output => tree.openForWriting path

/-- The stream over a file that has been opened. -/
def Stream.opened (place : Location) : Direction → Stream
  | .input => .fileSource (.start place)
  | .output => .fileSink place 0 [] []

/-- The port on a file that has been opened. -/
def Port.opened (path : Path) (stream : StreamId) (direction : Direction) : Port :=
  ⟨path.toText, stream, decide (direction = .input), true, false⟩

/-- The store in which a file has been opened. -/
def Store.opened (s : Store) (path : Path) (place : Location) (files : FileTree) (direction : Direction) :
    Store :=
  { s with
    files := files
    streams := s.streams.push (.opened place direction)
    ports := s.ports.push (.opened path s.streams.size direction) }

/-- The failure of opening a file that is refused. -/
def OpenRefusal.failure (path : Path) : OpenRefusal → Failure
  | .name fault => .fault (.name fault)
  | .system reason => .evaluation (.cannotOpen path reason)

/-- What comes of opening the file that a string names. -/
theorem openFile_str (direction : Direction) (who : Text) (buffer : BufferId) (s : Store) :
    openFile direction who (.str buffer) s =
      match s.files.pathIn s.directory (s.content buffer) with
      | .error fault => .error (.failure (.fault (.name fault))) s
      | .ok path =>
        match s.files.openIn path direction with
        | .error refusal => .error (.failure (refusal.failure path)) s
        | .ok (place, files) => .ok (.atom (.port s.ports.size)) (s.opened path place files direction) := by
  have htext : Action.asText (some who) (.str buffer) s = .ok (s.content buffer) s := rfl
  rw [openFile, bind_of_ok htext, get_bind]
  cases s.files.pathIn s.directory (s.content buffer) with
  | error fault => rfl
  | ok path =>
    cases direction with
    | input =>
      dsimp only [FileTree.openIn]
      cases s.files.openForReading path with
      | error refusal => cases refusal <;> rfl
      | ok place => rfl
    | output =>
      dsimp only [FileTree.openIn]
      cases s.files.openForWriting path with
      | error refusal => cases refusal <;> rfl
      | ok made => rfl

/-- A file is opened exactly when its name is a string whose path leads to it, and a new stream and a new
port are all that is made. -/
theorem openFile_ok_iff {direction : Direction} {who : Text} {name port : Value} {s s' : Store} :
    openFile direction who name s = .ok port s' ↔
      ∃ buffer path place files, name = .str buffer ∧
        s.files.pathIn s.directory (s.content buffer) = .ok path ∧
        s.files.openIn path direction = .ok (place, files) ∧
        port = .atom (.port s.ports.size) ∧ s' = s.opened path place files direction := by
  constructor
  · intro h
    have hname : ∃ buffer, name = .str buffer := by
      cases name with
      | atom a =>
        cases a with
        | str buffer => exact ⟨buffer, rfl⟩
        | _ => exact nomatch h
      | _ => exact nomatch h
    obtain ⟨buffer, rfl⟩ := hname
    rw [openFile_str] at h
    split at h
    next => cases h
    next path hpath =>
      split at h
      next => cases h
      next place files hopen =>
        cases h
        exact ⟨buffer, path, place, files, rfl, hpath, hopen, rfl, rfl⟩
  · rintro ⟨buffer, path, place, files, rfl, hpath, hopen, rfl, rfl⟩
    rw [openFile_str, hpath]
    dsimp only
    rw [hopen]

end Lisplet
