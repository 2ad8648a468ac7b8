import WarmCheck.Head
import WarmCheck.Proofs.Ancestors
import WarmCheck.Proofs.Grammar
import WarmCheck.Proofs.Places

/-!
# The nearest repository

Which head file is found depends on what the nearest `.git` at or above a directory leads to, and on nothing above
it. A `.git` that is of no use ends the search.

* `Head.IsNearest`: the nearest directory with a `.git`; `Head.dotGit?_of_isNearest`: it is found.
* `Head.IsTarget`: what a `.git` file points to; `Head.target?_eq_some_iff`: it is read.
* `Head.LeadsTo`: the head file in a directory that a `.git` file points to.
* **`Head.follows_nearest`**: what the head file is, case by case.
-/

namespace WarmCheck.Head

/-- What a repository is known by. -/
def gitName : Path := .ofString ".git"

/-- The name of the head file. -/
def headName : Path := .ofString "HEAD"

/-- How the line begins that points to another directory. -/
def pointer : List Char := "gitdir:".toList

/-! ## The nearest directory -/

/-- Whether `dir` is the nearest directory with a `.git` at or above another one. -/
structure IsNearest (d : Disk) (start dir : Path) : Prop where
  mem : dir ∈ start.ancestors
  reaches : d.reaches (dir.join gitName) = true
  nearest : ∀ q ∈ start.ancestors, dir.rest.length < q.rest.length → d.reaches (q.join gitName) = false

variable {d d' : Disk} {start dir : Path} {text g : List Char}

theorem dotGit?_of_isNearest (hstart : start.isAbsolute = true) (h : IsNearest d start dir) :
    dotGit? d start = some (dir.join gitName) := by
  obtain ⟨below, above, hsplit⟩ := List.append_of_mem h.mem
  have hpairwise := Path.pairwise_ancestors hstart
  rw [hsplit, List.pairwise_append] at hpairwise
  unfold dotGit?
  rw [hsplit, List.map_append, List.map_cons]
  refine List.find?_eq_some_iff_append.mpr ⟨h.reaches, _, _, rfl, ?_⟩
  intro p hp
  obtain ⟨q, hq, rfl⟩ := List.mem_map.mp hp
  have hmem : q ∈ start.ancestors := by
    rw [hsplit]
    exact List.mem_append_left _ hq
  have hnot := h.nearest q hmem (hpairwise.2.2 q hq dir List.mem_cons_self)
  exact (Bool.not_eq_true' _).mpr hnot

theorem exists_isNearest (hstart : start.isAbsolute = true) {dotGit : Path} (h : dotGit? d start = some dotGit) :
    ∃ dir, IsNearest d start dir := by
  unfold dotGit? at h
  obtain ⟨hreaches, below, above, hsplit, hbelow⟩ := List.find?_eq_some_iff_append.mp h
  obtain ⟨before, after, hancestors, rfl, hafter⟩ := List.map_eq_append_iff.mp hsplit
  obtain ⟨dir, rest, rfl, rfl, -⟩ := List.map_eq_cons_iff.mp hafter
  have hpairwise := Path.pairwise_ancestors hstart
  rw [hancestors, List.pairwise_append, List.pairwise_cons] at hpairwise
  refine ⟨dir, by simp [hancestors], hreaches, ?_⟩
  intro q hq hlen
  -- what is no nearer than `dir` has no more parts
  rw [hancestors, List.mem_append, List.mem_cons] at hq
  rcases hq with hq | rfl | hq
  · exact (Bool.not_eq_true' _).mp (hbelow _ (List.mem_map_of_mem hq))
  · omega
  · have := hpairwise.2.1.1 q hq
    omega

/-! ## What a file points to -/

/-- The lines of a text. -/
def IsLines (text : List Char) (ls : List (List Char)) : Prop :=
  ls ≠ [] ∧ (∀ l ∈ ls, '\n' ∉ l) ∧ text = ['\n'].intercalate ls

/-- Whether `g` is what the first line says that begins with the pointer, without blanks around it. -/
def IsTarget (text g : List Char) : Prop :=
  ∃ before line after, IsLines text (before ++ (pointer ++ line) :: after) ∧ (∀ l ∈ before, ¬pointer <+: l) ∧
    Text.trim line = g

theorem isPrefixOf?_eq_none_iff {l : List Char} : List.isPrefixOf? pointer l = none ↔ ¬pointer <+: l := by
  constructor
  · rintro h ⟨line, rfl⟩
    rw [Text.isPrefixOf?_append] at h
    cases h
  · intro h
    cases hdrop : List.isPrefixOf? pointer l with
    | none => rfl
    | some line => exact absurd ⟨line, List.isPrefixOf?_eq_some_iff_append_eq.mp hdrop⟩ h

theorem target?_eq_some_iff {p : Path} : target? text = some p ↔ ∃ g, IsTarget text g ∧ p = ⟨Utf8.encode g⟩ := by
  unfold target?
  rw [Option.map_eq_some_iff]
  constructor
  · rintro ⟨line, hline, rfl⟩
    obtain ⟨before, l, after, hpieces, hl, hbefore⟩ := List.findSome?_eq_some_iff.mp hline
    rw [← List.isPrefixOf?_eq_some_iff_append_eq.mp hl] at hpieces
    exact ⟨_, ⟨before, line, after, Text.splitOn_eq_iff.mp hpieces,
      fun l hl => isPrefixOf?_eq_none_iff.mp (hbefore l hl), rfl⟩, rfl⟩
  · rintro ⟨g, ⟨before, line, after, hlines, hbefore, rfl⟩, rfl⟩
    refine ⟨line, List.findSome?_eq_some_iff.mpr ?_, rfl⟩
    exact ⟨before, _, after, Text.splitOn_eq_iff.mpr hlines, Text.isPrefixOf?_append pointer line,
      fun l hl => isPrefixOf?_eq_none_iff.mpr (hbefore l hl)⟩

theorem target?_eq_none_of_lines {ls : List (List Char)} (hlines : IsLines text ls) (h : ∀ l ∈ ls, ¬pointer <+: l) :
    target? text = none := by
  unfold target?
  rw [Text.splitOn_eq_iff.mpr hlines, Option.map_eq_none_iff, List.findSome?_eq_none_iff]
  exact fun l hl => isPrefixOf?_eq_none_iff.mpr (h l hl)

/-- A path without blanks around it is read as it is written, whatever lines come after. -/
theorem isTarget_of_line (hne : g ≠ []) (hline : '\n' ∉ g) (hhead : ∀ c ∈ g.head?, Text.isBlank c = false)
    (hlast : ∀ c ∈ g.getLast?, Text.isBlank c = false) {after : List Char} (hafter : ∀ c ∈ after.head?, c = '\n') :
    IsTarget (pointer ++ ' ' :: g ++ after) g := by
  have hfirst : '\n' ∉ pointer ++ ' ' :: g := by
    have hpointer : '\n' ∉ pointer := by decide
    simp [hpointer, hline]
  have htrim : Text.trim (' ' :: g) = g := by
    have hblanks : Text.trim ([' '] ++ (g ++ [])) = g := Text.trim_eq_of_blanks rfl rfl hne hhead hlast
    rwa [List.append_nil] at hblanks
  cases after with
  | nil =>
    refine ⟨[], ' ' :: g, [], Text.splitOn_eq_iff.mp ?_, fun l hl => absurd hl List.not_mem_nil, htrim⟩
    rw [List.append_nil, List.splitOn_eq_singleton hfirst]
    rfl
  | cons c after =>
    obtain rfl := hafter c rfl
    refine ⟨[], ' ' :: g, List.splitOn '\n' after, Text.splitOn_eq_iff.mp ?_,
      fun l hl => absurd hl List.not_mem_nil, htrim⟩
    rw [List.splitOn_append_cons_self, List.splitOn_eq_singleton hfirst]
    rfl

/-! ## The head file -/

/-- The head file in the directory `g`, seen from the one that `dotGit` is in. -/
def follow (dotGit g : Path) : Option Path :=
  if g.isAbsolute then some (g.join headName) else dotGit.parent?.map fun up => (up.join g).join headName

theorem find?_eq (d : Disk) (start : Path) :
    find? d start = (dotGit? d start).bind fun dotGit =>
      if d.isDir dotGit then some (dotGit.join headName)
      else (((d.read dotGit).toOption.bind Utf8.decode?).bind target?).bind (follow dotGit) := by
  unfold find?
  refine Option.bind_congr fun dotGit _ => ?_
  by_cases hdir : d.isDir dotGit = true
  · simp only [hdir, if_true]
    rfl
  rw [if_neg hdir]
  simp only [hdir]
  cases d.read dotGit with
  | error e => rfl
  | ok content =>
    cases hdecode : Utf8.decode? content with
    | none => simp [Except.toOption, hdecode]
    | some text =>
      cases htarget : target? text with
      | none => simp [Except.toOption, hdecode, htarget]
      | some g =>
        simp only [Except.toOption, hdecode, htarget, Option.bind_eq_bind, Option.bind_some, follow]
        split
        · rfl
        · cases dotGit.parent? <;> rfl

/-- Whether the answer is the head file in the directory `g`, as seen from `dir`. -/
def LeadsTo (dir g : Path) (answer : Option Path) : Prop :=
  ∃ head, answer = some head ∧ (g.isAbsolute = true → head = g.join headName) ∧
    (g.isAbsolute = false → head.same ((dir.join g).join headName) = true)

theorem leadsTo_follow (hdir : dir.isAbsolute = true) (g : Path) : LeadsTo dir g (follow (dir.join gitName) g) := by
  unfold follow
  by_cases hg : g.isAbsolute = true
  · rw [if_pos hg]
    exact ⟨_, rfl, fun _ => rfl, fun h => absurd (hg.symm.trans h) Bool.noConfusion⟩
  · obtain ⟨up, hup, habsolute, hrest⟩ := Path.exists_parent_join hdir (q := gitName) rfl rfl
    rw [if_neg hg, hup]
    refine ⟨_, rfl, fun h => absurd h hg, fun _ => beq_iff_eq.mpr ?_⟩
    have hup : up.bytes ≠ [] := Path.ne_nil_of_isAbsolute habsolute
    have hdir' : dir.bytes ≠ [] := Path.ne_nil_of_isAbsolute hdir
    have hsame : up.components = dir.components := by
      rw [Path.components_of_isAbsolute habsolute, Path.components_of_isAbsolute hdir, hrest]
    exact Path.components_join_congr (Path.join_ne_nil hup g) (Path.join_ne_nil hdir' g)
      (Path.components_join_congr hup hdir' hsame g) headName

/-! ## One repository -/

theorem find?_of_isDir (hstart : start.isAbsolute = true) (h : IsNearest d start dir)
    (hdir : d.isDir (dir.join gitName) = true) : find? d start = some ((dir.join gitName).join headName) := by
  rw [find?_eq, dotGit?_of_isNearest hstart h, Option.bind_some, if_pos hdir]

theorem find?_of_not_isDir (hstart : start.isAbsolute = true) (h : IsNearest d start dir)
    (hdir : d.isDir (dir.join gitName) = false) :
    find? d start = (((d.read (dir.join gitName)).toOption.bind Utf8.decode?).bind target?).bind
      (follow (dir.join gitName)) := by
  rw [find?_eq, dotGit?_of_isNearest hstart h, Option.bind_some, if_neg (by simp [hdir])]

theorem leadsTo_find? (hstart : start.isAbsolute = true) (h : IsNearest d start dir)
    (hdir : d.isDir (dir.join gitName) = false) (hread : d.read (dir.join gitName) = .ok (Utf8.encode text))
    (htarget : IsTarget text g) : LeadsTo dir ⟨Utf8.encode g⟩ (find? d start) := by
  have hg : target? text = some ⟨Utf8.encode g⟩ := target?_eq_some_iff.mpr ⟨g, htarget, rfl⟩
  rw [find?_of_not_isDir hstart h hdir, hread, Except.toOption, Option.bind_some, Utf8.decode?_encode,
    Option.bind_some, hg, Option.bind_some]
  exact leadsTo_follow (Path.isAbsolute_of_mem_ancestors hstart h.mem) _

/-- Whether two disks are alike up to `dir`: in which directories have a `.git`, and in what that of `dir` leads to. -/
structure AreAlike (d d' : Disk) (start dir : Path) : Prop where
  reaches : ∀ q ∈ start.ancestors, dir.rest.length ≤ q.rest.length →
    d'.reaches (q.join gitName) = d.reaches (q.join gitName)
  isDir : d'.isDir (dir.join gitName) = d.isDir (dir.join gitName)
  read : (d'.read (dir.join gitName)).toOption = (d.read (dir.join gitName)).toOption

theorem IsNearest.of_areAlike (h : IsNearest d start dir) (halike : AreAlike d d' start dir) :
    IsNearest d' start dir := by
  refine ⟨h.mem, ?_, ?_⟩
  · rw [halike.reaches dir h.mem (Nat.le_refl _), h.reaches]
  · intro q hq hlen
    rw [halike.reaches q hq (Nat.le_of_lt hlen), h.nearest q hq hlen]

theorem find?_congr (hstart : start.isAbsolute = true) (h : IsNearest d start dir) (halike : AreAlike d d' start dir) :
    find? d' start = find? d start := by
  rw [find?_eq, find?_eq, dotGit?_of_isNearest hstart h, dotGit?_of_isNearest hstart (h.of_areAlike halike)]
  simp only [Option.bind_some, halike.isDir, halike.read]

/-- What is found is decided by the nearest `.git`. Where there is none, nothing is found. A directory holds the head
file. A file points to the directory that holds it; the target, as a path without blanks around it, is taken as it is
written. A file that cannot be read, is not text or points nowhere ends the search. What is further up is never looked
at. -/
structure FollowsNearest (d : Disk) (start : Path) : Prop where
  outside : (¬∃ dir, IsNearest d start dir) → find? d start = none
  directory : ∀ dir, IsNearest d start dir → d.isDir (dir.join gitName) = true →
    find? d start = some ((dir.join gitName).join headName)
  file : ∀ dir text g, IsNearest d start dir → d.isDir (dir.join gitName) = false →
    d.read (dir.join gitName) = .ok (Utf8.encode text) → IsTarget text g → LeadsTo dir ⟨Utf8.encode g⟩ (find? d start)
  verbatim : ∀ dir g after, IsNearest d start dir → d.isDir (dir.join gitName) = false →
    d.read (dir.join gitName) = .ok (Utf8.encode (pointer ++ ' ' :: g ++ after)) → g ≠ [] → '\n' ∉ g →
    (∀ c ∈ g.head?, Text.isBlank c = false) → (∀ c ∈ g.getLast?, Text.isBlank c = false) →
    (∀ c ∈ after.head?, c = '\n') → LeadsTo dir ⟨Utf8.encode g⟩ (find? d start)
  unreadable : ∀ dir fault, IsNearest d start dir → d.isDir (dir.join gitName) = false →
    d.read (dir.join gitName) = .error fault → find? d start = none
  notText : ∀ dir content, IsNearest d start dir → d.isDir (dir.join gitName) = false →
    d.read (dir.join gitName) = .ok content → (∀ text, content ≠ Utf8.encode text) → find? d start = none
  pointless : ∀ dir text ls, IsNearest d start dir → d.isDir (dir.join gitName) = false →
    d.read (dir.join gitName) = .ok (Utf8.encode text) → IsLines text ls → (∀ l ∈ ls, ¬pointer <+: l) →
    find? d start = none
  alike : ∀ dir d', IsNearest d start dir → AreAlike d d' start dir → find? d' start = find? d start

/-- **The head file depends on the nearest repository only.** -/
theorem follows_nearest (d : Disk) (hstart : start.isAbsolute = true) : FollowsNearest d start where
  outside h := by
    cases hdotGit : dotGit? d start with
    | none => rw [find?_eq, hdotGit, Option.bind_none]
    | some dotGit => exact absurd (exists_isNearest hstart hdotGit) h
  directory _ := find?_of_isDir hstart
  file _ _ _ := leadsTo_find? hstart
  verbatim _ _ _ h hdir hread hne hline hhead hlast hafter :=
    leadsTo_find? hstart h hdir hread (isTarget_of_line hne hline hhead hlast hafter)
  unreadable _ _ h hdir hread := by rw [find?_of_not_isDir hstart h hdir, hread]; rfl
  notText dir content h hdir hread hcontent := by
    have hdecode : Utf8.decode? content = none := by
      cases hsome : Utf8.decode? content with
      | none => rfl
      | some text => exact absurd (Utf8.decode?_eq_some_iff.mp hsome) (hcontent text)
    rw [find?_of_not_isDir hstart h hdir, hread, Except.toOption, Option.bind_some, hdecode]
    rfl
  pointless _ text _ h hdir hread hlines hnone := by
    rw [find?_of_not_isDir hstart h hdir, hread, Except.toOption, Option.bind_some, Utf8.decode?_encode,
      Option.bind_some, target?_eq_none_of_lines hlines hnone]
    rfl
  alike _ _ := find?_congr hstart

/-- A worktree in a repository, reached through a link, with several lines and several targets. -/
theorem follows_nearest_of_worktree :
    let text := "# worktree\r\ngitdir:\t../g \r\ngitdir: /no\n".toList
    let work : Node :=
      .dir Disk.dirMode [(Utf8.ofString ".git", .link (.ofString "/r/x")), ([97], .dir Disk.dirMode [])]
    let repository : Node := .dir Disk.dirMode
      [(Utf8.ofString ".git", .dir Disk.dirMode []), ([119], work), ([120], .file (Utf8.encode text) Disk.fileMode)]
    let d : Disk := ⟨.dir Disk.dirMode [([114], repository)], []⟩
    let start := Path.ofString "/r/w/a"
    start.isAbsolute = true ∧ IsNearest d start (.ofString "/r/w") ∧
      LeadsTo (.ofString "/r/w") (.ofString "../g") (find? d start) := by
  intro text work repository d start
  have hr (links : Nat) (rest : List Name) : d.walk true links [] ([114] :: rest) = d.walk true links [[114]] rest :=
    Disk.walk_cons rfl rfl ⟨by decide, by decide, by decide⟩ rfl (fun _ => Node.noConfusion) true links rest
  have hw (rest : List Name) :
      d.walk true Disk.maxLinks [[114]] ([119] :: rest) = d.walk true Disk.maxLinks [[114], [119]] rest :=
    Disk.walk_cons rfl rfl ⟨by decide, by decide, by decide⟩ rfl (fun _ => Node.noConfusion) true Disk.maxLinks rest
  have hfile : d.lookup true (.ofString "/r/w/.git") = .ok (.file (Utf8.encode text) Disk.fileMode) := by
    refine Disk.lookup_eq_ok_iff.mpr ⟨rfl, [[114], [120]], ?_⟩
    show d.walk true Disk.maxLinks [] ([114] :: [119] :: [Utf8.ofString ".git"]) = _
    have hlink : d.walk true Disk.maxLinks [[114], [119]] [Utf8.ofString ".git"] =
        d.walk true 39 (if (Path.ofString "/r/x").isAbsolute then [] else [[114], [119]])
          (Disk.names (.ofString "/r/x") ++ []) :=
      Disk.walk_link rfl rfl ⟨by decide, by decide, by decide⟩ rfl (by decide) 39 []
    have htarget : d.walk true Disk.maxLinks [[114], [119]] [Utf8.ofString ".git"] =
        d.walk true 39 [] ([114] :: [[120]]) := hlink
    have hx : d.walk true 39 [[114]] [[120]] = d.walk true 39 [[114], [120]] [] :=
      Disk.walk_cons rfl rfl ⟨by decide, by decide, by decide⟩ rfl (fun _ => Node.noConfusion) true 39 []
    rw [hr, hw, htarget, hr, hx]
    exact Disk.walk_nil rfl true 39
  have hmissing : d.reaches (.ofString "/r/w/a/.git") = false := by
    have ha : d.walk true Disk.maxLinks [[114], [119]] ([97] :: [Utf8.ofString ".git"]) =
        d.walk true Disk.maxLinks [[114], [119], [97]] [Utf8.ofString ".git"] :=
      Disk.walk_cons rfl rfl ⟨by decide, by decide, by decide⟩ rfl (fun _ => Node.noConfusion) true Disk.maxLinks _
    have hwalk : d.walk true Disk.maxLinks [] ([114] :: [119] :: [97] :: [Utf8.ofString ".git"]) =
        .ok (.vacant [[114], [119], [97]] (Utf8.ofString ".git")) := by
      rw [hr, hw, ha]
      exact Disk.walk_vacant rfl rfl ⟨by decide, by decide, by decide⟩ rfl true Disk.maxLinks
    have hfind : d.find true (.ofString "/r/w/a/.git") = .ok (.vacant [[114], [119], [97]] (Utf8.ofString ".git")) :=
      congrArg (Except.mapError Fault.os) hwalk
    unfold Disk.reaches Disk.lookup
    rw [hfind]
    rfl
  have hancestors : start.ancestors = [start, .ofString "/r/w", .ofString "/r", .ofString "/"] := by decide
  have hnearest : IsNearest d start (.ofString "/r/w") := by
    refine ⟨by simp [hancestors], ?_, ?_⟩
    · show (d.lookup true (.ofString "/r/w/.git")).isOk = true
      rw [hfile]
      rfl
    · intro q hq hlen
      rw [hancestors] at hq
      simp only [List.mem_cons, List.not_mem_nil, or_false] at hq
      rcases hq with rfl | rfl | rfl | rfl
      · exact hmissing
      all_goals exact absurd hlen (by decide)
  have hdir : d.isDir (.ofString "/r/w/.git") = false := by
    unfold Disk.isDir
    rw [hfile]
    rfl
  have hread : d.read (.ofString "/r/w/.git") = .ok (Utf8.encode text) := by
    unfold Disk.read
    rw [hfile]
    rfl
  have htarget : IsTarget text "../g".toList :=
    ⟨["# worktree\r".toList], "\t../g \r".toList, ["gitdir: /no".toList, []], ⟨by decide, by decide, by decide⟩,
      by decide, by decide⟩
  exact ⟨rfl, hnearest, (follows_nearest d rfl).file _ text _ hnearest hdir hread htarget⟩

end WarmCheck.Head
