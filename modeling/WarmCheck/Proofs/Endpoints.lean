import WarmCheck.Proofs.Colours
import WarmCheck.Proofs.Joins
import WarmCheck.Proofs.Places
import WarmCheck.Workspace

/-!
# Where processes meet

A daemon and its clients compute for themselves where they meet. They come to the same place if the root is short
enough for a socket in the cache directory; else the socket has the same name for all of them, in the directory that
each of them has for temporary files.

* `Workspace.isEntry_socketName`: the name in that directory is a name.
* `Workspace.length_cacheSocket`: how long the path in the cache directory is.
* **`Workspace.agrees_iff`**: when two processes meet; `Workspace.meets_by_environment`: two that do not.
-/

namespace WarmCheck

open Disk

namespace Path

theorem join_eq {p q : Path} {b : UInt8} (hp : p.bytes.getLast? = some b) (hb : b ≠ slash)
    (hq : q.isAbsolute = false) : p.join q = ⟨p.bytes ++ slash :: q.bytes⟩ := by
  unfold join
  rw [if_neg (by simp [hq]), hp]
  exact if_neg hb

theorem rest_mk {name : Name} (h : IsEntry name) : (Path.mk name).rest = [.name name] := by
  unfold rest
  rw [List.splitOn_eq_singleton h.slash, List.filter_singleton, h.isIdle]
  simp [h.componentOf]

theorem components_child (p : Path) {name : Name} (h : IsEntry name) :
    (p.child name).components = p.components ++ [.name name] := by
  by_cases hp : p.bytes = []
  · obtain rfl : p = ⟨[]⟩ := congrArg Path.mk hp
    have hhead : (Path.mk name).parts.1 = .none := by
      refine parts_eq_none_iff.mpr ⟨fun hslash => h.slash (hslash.subset List.mem_cons_self), h.dot, ?_⟩
      exact fun hdot => h.slash (hdot.subset (List.mem_cons_of_mem dot List.mem_cons_self))
    have hchild : (Path.mk []).child name = ⟨name⟩ := by simp [child, join, h.isAbsolute]
    rw [hchild, components_eq, hhead, rest_mk h]
    rfl
  · rw [child, components_join hp h.isAbsolute, rest_mk h]

theorem same_child_iff {p q : Path} {name : Name} (h : IsEntry name) :
    (p.child name).same (q.child name) = true ↔ p.same q = true := by
  unfold same
  rw [beq_iff_eq, beq_iff_eq, components_child p h, components_child q h]
  exact List.append_left_inj _

theorem same_refl (p : Path) : p.same p = true := beq_self_eq_true p.components

end Path

namespace Workspace

/-! ## Names for the socket -/

/-- The name of the socket in a directory for temporary files. -/
def socketName (root : Path) : Name := Utf8.encode ("checkd-".toList ++ fingerprint root ++ ".sock".toList)

theorem not_mem_fingerprint (root : Path) : '/' ∉ fingerprint root := by
  have hdigit : ∀ n < 16, '/' ≠ Json.hexDigit n := by decide
  intro hmem
  obtain ⟨b, -, hb⟩ := List.mem_flatMap.mp hmem
  have hlt := b.toNat_lt
  rcases List.mem_pair.mp hb with heq | heq
  · exact hdigit _ (by omega) heq
  · exact hdigit _ (by omega) heq

theorem isEntry_socketName (root : Path) : IsEntry (socketName root) := by
  -- its first letter is not a dot
  obtain ⟨bs, hbs⟩ : ∃ bs, socketName root = 99 :: bs := ⟨_, rfl⟩
  have hslash : '/' ∉ "checkd-".toList ++ fingerprint root ++ ".sock".toList := by
    simp [not_mem_fingerprint root]
  refine ⟨?_, Utf8.octet_not_mem_encode (by decide) hslash, ?_, ?_⟩ <;> rw [hbs]
  · exact List.cons_ne_nil 99 bs
  · exact fun h => absurd (List.cons.inj h).1 (by decide)
  · exact fun h => absurd (List.cons.inj h).1 (by decide)

/-! ## The limit -/

/-- The longest root that has its socket in the cache directory. -/
def maxRoot : Nat := 61

variable {root : Place} {env env' : Environment}

theorem length_cacheSocket (hne : root ≠ []) (h : ∀ name ∈ root, IsEntry name) (env : Environment) :
    (of root.path env).cacheSocket.bytes.length = root.path.bytes.length + 39 := by
  obtain ⟨init, last, rfl⟩ := (List.eq_nil_or_concat' root).resolve_left hne
  obtain ⟨b, hlast, hb⟩ := Place.getLast?_path init (h last (by simp))
  have hcache : (of (Place.path (init ++ [last])) env).cache =
      ⟨(Place.path (init ++ [last])).bytes ++ Path.slash :: Utf8.ofString "node_modules/.cache/checkd"⟩ :=
    Path.join_eq hlast hb (by decide)
  have hd : (of (Place.path (init ++ [last])) env).cache.bytes.getLast? = some 100 := by
    rw [hcache, List.getLast?_append_of_ne_nil _ (List.cons_ne_nil _ _)]
    decide
  unfold cacheSocket
  rw [Path.join_eq hd (by decide) (by decide), hcache]
  simp [Path.ofString, Utf8.ofString, Utf8.encode, Utf8.encodeChar]

theorem cacheSocket_fits_iff (h : ∀ name ∈ root, IsEntry name) (env : Environment) :
    (of root.path env).cacheSocket.bytes.length ≤ maxSocketPath ↔ root.path.bytes.length ≤ maxRoot := by
  unfold maxSocketPath maxRoot
  by_cases hne : root = []
  · subst hne
    have htop : (Path.ofString "/node_modules/.cache/checkd/daemon.sock").bytes.length ≤ 100 := by decide
    exact iff_of_true htop (by decide)
  · rw [length_cacheSocket hne h]
    omega

theorem endpoint_of_le (h : ∀ name ∈ root, IsEntry name) (hlen : root.path.bytes.length ≤ maxRoot)
    (env : Environment) : (of root.path env).endpoint = (of root.path env).cacheSocket :=
  if_pos ((cacheSocket_fits_iff h env).mpr hlen)

theorem endpoint_of_lt (h : ∀ name ∈ root, IsEntry name) (hlen : maxRoot < root.path.bytes.length)
    (env : Environment) : (of root.path env).endpoint = (tempDir env).child (socketName root.path) := by
  have hlong : ¬(of root.path env).cacheSocket.bytes.length ≤ maxSocketPath := by
    rw [cacheSocket_fits_iff h]
    omega
  exact if_neg hlong

/-! ## Meeting -/

/-- Whether two processes look for each other at the same places. -/
structure Agrees (w w' : Workspace) : Prop where
  cache : w.cache = w'.cache
  marker : w.marker = w'.marker
  endpoint : w.endpoint.same w'.endpoint = true

theorem endpoint_same_iff (h : ∀ name ∈ root, IsEntry name) (env env' : Environment) :
    (of root.path env).endpoint.same (of root.path env').endpoint = true ↔
      root.path.bytes.length ≤ maxRoot ∨ (tempDir env).same (tempDir env') = true := by
  by_cases hlen : root.path.bytes.length ≤ maxRoot
  · rw [endpoint_of_le h hlen, endpoint_of_le h hlen]
    exact iff_of_true (Path.same_refl _) (.inl hlen)
  · rw [endpoint_of_lt h (by omega), endpoint_of_lt h (by omega), Path.same_child_iff (isEntry_socketName root.path)]
    exact (or_iff_right hlen).symm

/-- **Two processes at one root meet** if the root is no longer than `maxRoot`, or else if they have the same
directory for temporary files. The cache directory and the marker are the same for all processes. -/
theorem agrees_iff (h : ∀ name ∈ root, IsEntry name) (env env' : Environment) :
    Agrees (of root.path env) (of root.path env') ↔
      root.path.bytes.length ≤ maxRoot ∨ (tempDir env).same (tempDir env') = true :=
  ⟨fun hagrees => (endpoint_same_iff h env env').mp hagrees.endpoint,
    fun hsame => ⟨rfl, rfl, (endpoint_same_iff h env env').mpr hsame⟩⟩

/-- A root with a name of `n` letters below a directory. -/
def deepRoot (n : Nat) : Place := [Utf8.ofString "srv", List.replicate n 97]

/-- The variables of a process whose user has a directory of their own for temporary files. -/
def ownDirectory : Environment := ⟨[("TMPDIR", Utf8.ofString "/run/user/7")]⟩

/-- Of two roots that differ by a letter, the shorter one has its processes meet in any case, the longer one if their
directories for temporary files mean the same. -/
theorem agrees_of_deepRoot :
    Agrees (of (deepRoot 56).path ownDirectory) (of (deepRoot 56).path ⟨[]⟩) ∧
      ¬Agrees (of (deepRoot 57).path ownDirectory) (of (deepRoot 57).path ⟨[]⟩) ∧
      Agrees (of (deepRoot 57).path ⟨[("TMPDIR", Utf8.ofString "/tmp/")]⟩) (of (deepRoot 57).path ⟨[]⟩) := by
  have hshort : ∀ name ∈ deepRoot 56, IsEntry name := by decide
  have hlong : ∀ name ∈ deepRoot 57, IsEntry name := by decide
  refine ⟨(agrees_iff hshort _ _).mpr ?_, (agrees_iff hlong _ _).not.mpr ?_, (agrees_iff hlong _ _).mpr ?_⟩
  all_goals decide

/-- A client whose environment names another directory for temporary files looks for the daemon in vain. -/
theorem meets_by_environment :
    (∀ name ∈ deepRoot 72, IsEntry name) ∧
      ¬Agrees (of (deepRoot 72).path ownDirectory) (of (deepRoot 72).path ⟨[]⟩) := by
  have hroot : ∀ name ∈ deepRoot 72, IsEntry name := by decide
  refine ⟨hroot, fun hagrees => ?_⟩
  have hsame := (endpoint_same_iff hroot ownDirectory ⟨[]⟩).mp hagrees.endpoint
  revert hsame
  decide

end Workspace

end WarmCheck
