import WarmCheck.Proofs.Endpoints
import WarmCheck.Proofs.Quoting

/-!
# Workspaces kept apart

The daemons of two workspaces do not get in each other's way: their sockets are at different places, unless both roots
are too long for a socket in the cache directory and the digests of the roots begin alike. That holds wherever the
directory for temporary files is, even if it is a cache directory.

* `Workspace.fingerprint_eq_iff`: roots with one fingerprint.
* `Workspace.components_cacheSocket`, `Workspace.components_tempSocket`: the two schemes of naming a socket.
* `Workspace.length_endpoint_le`: how long the path of a socket can get.
* **`Workspace.keepsApart_of_tempDir`**: when two workspaces have one socket.
-/

namespace WarmCheck

open Disk

theorem Place.eq_of_components_path {place place' : Place} (h : ∀ name ∈ place, IsEntry name)
    (h' : ∀ name ∈ place', IsEntry name) (heq : place.path.components = place'.path.components) :
    place = place' := by
  rw [components_path h, components_path h', List.cons.injEq] at heq
  exact List.map_injective_iff.mpr (fun _ _ => Component.name.inj) heq.2

/-- A joined path has at most a slash more than the two it is made of. -/
theorem Path.length_join_le (p q : Path) : (p.join q).bytes.length ≤ p.bytes.length + q.bytes.length + 1 := by
  unfold join
  split
  · omega
  split
  · omega
  split
  · show (p.bytes ++ q.bytes).length ≤ _
    rw [List.length_append]
    omega
  · show (p.bytes ++ slash :: q.bytes).length ≤ _
    rw [List.length_append, List.length_cons]
    omega

theorem Sha256.length_digest (m : Bytes) : (digest m).length = 32 := rfl

namespace Workspace

/-! ## Fingerprints -/

theorem hexDigit_inj {n m : Nat} (hn : n < 16) (hm : m < 16) (h : Json.hexDigit n = Json.hexDigit m) : n = m := by
  have hvalue := Json.hexValue?_hexDigit hn
  rw [h, Json.hexValue?_hexDigit hm] at hvalue
  exact (Option.some.inj hvalue).symm

/-- Octets can be told from their digits, zeros in front included. -/
theorem flatMap_hexDigit_inj {as bs : Bytes}
    (h : as.flatMap (fun b => [Json.hexDigit (b.toNat / 16), Json.hexDigit (b.toNat % 16)]) =
      bs.flatMap fun b => [Json.hexDigit (b.toNat / 16), Json.hexDigit (b.toNat % 16)]) : as = bs := by
  induction as generalizing bs with
  | nil =>
    cases bs with
    | nil => rfl
    | cons b bs => cases h
  | cons a as ih =>
    cases bs with
    | nil => cases h
    | cons b bs =>
      simp only [List.flatMap_cons, List.cons_append, List.nil_append, List.cons.injEq] at h
      obtain ⟨hhigh, hlow, hrest⟩ := h
      have ha := a.toNat_lt
      have hb := b.toNat_lt
      have hdiv := hexDigit_inj (by omega) (by omega) hhigh
      have hmod := hexDigit_inj (Nat.mod_lt _ (by decide)) (Nat.mod_lt _ (by decide)) hlow
      have hsame : a = b := UInt8.toNat_inj.mp (by omega)
      rw [hsame, ih hrest]

/-- Roots with one fingerprint are those whose digests begin with the same 64 bits. -/
theorem fingerprint_eq_iff {root root' : Path} :
    fingerprint root = fingerprint root' ↔
      (Sha256.digest root.bytes).take 8 = (Sha256.digest root'.bytes).take 8 :=
  ⟨flatMap_hexDigit_inj, fun h => by rw [fingerprint, fingerprint, h]⟩

theorem length_encode_fingerprint (root : Path) : (Utf8.encode (fingerprint root)).length = 16 := by
  have hdigit : ∀ n < 16, (Utf8.encodeChar (Json.hexDigit n)).length = 1 := by decide
  have hlength : ∀ bs : Bytes, (Utf8.encode (bs.flatMap fun b =>
      [Json.hexDigit (b.toNat / 16), Json.hexDigit (b.toNat % 16)])).length = 2 * bs.length := by
    intro bs
    induction bs with
    | nil => rfl
    | cons b bs ih =>
      have hb := b.toNat_lt
      rw [List.flatMap_cons, Utf8.encode_append, List.length_append, ih, List.length_cons, Utf8.encode,
        List.flatMap_cons, List.flatMap_singleton, List.length_append, hdigit _ (by omega), hdigit _ (by omega)]
      omega
  rw [fingerprint, hlength, List.length_take, Sha256.length_digest]
  rfl

theorem length_socketName (root : Path) : (socketName root).length = 28 := by
  have hbegin : (Utf8.encode "checkd-".toList).length = 7 := rfl
  have hend : (Utf8.encode ".sock".toList).length = 5 := rfl
  rw [socketName, Utf8.encode_append, Utf8.encode_append, List.length_append, List.length_append, hbegin, hend,
    length_encode_fingerprint]

theorem socketName_eq_iff {root root' : Path} :
    socketName root = socketName root' ↔ fingerprint root = fingerprint root' := by
  rw [socketName, socketName, Utf8.encode_inj, List.append_left_inj, List.append_right_inj]

/-! ## Two schemes -/

/-- The socket of the workspace would have too long a path in the cache directory. -/
def IsDeep (w : Workspace) : Prop := maxSocketPath < w.cacheSocket.bytes.length

instance (w : Workspace) : Decidable w.IsDeep := inferInstanceAs (Decidable (_ < _))

theorem endpoint_of_isDeep {w : Workspace} (h : w.IsDeep) : w.endpoint = w.tempSocket := if_neg (Nat.not_le.mpr h)

theorem endpoint_of_not_isDeep {w : Workspace} (h : ¬w.IsDeep) : w.endpoint = w.cacheSocket :=
  if_pos (Nat.not_lt.mp h)

theorem components_cacheSocket {w : Workspace} (h : w.root.bytes ≠ []) :
    w.cacheSocket.components = w.root.components ++ (Path.ofString "node_modules/.cache/checkd/daemon.sock").rest := by
  have hcache : w.cache.bytes ≠ [] := by
    obtain ⟨init, hjoin, -⟩ := Path.exists_join h (q := .ofString "node_modules/.cache/checkd") (by decide)
    rw [cache, hjoin]
    exact List.append_ne_nil_of_right_ne_nil init (List.cons_ne_nil _ _)
  rw [cacheSocket, Path.components_join hcache (by decide), cache, Path.components_join h (by decide),
    List.append_assoc]
  congr 1

theorem components_tempSocket (w : Workspace) :
    w.tempSocket.components = w.temp.components ++ [.name (socketName w.root)] :=
  Path.components_child w.temp (isEntry_socketName w.root)

/-- A socket in a cache directory is never one in a directory for temporary files: they have different names. -/
theorem components_cacheSocket_ne {w : Workspace} (h : w.root.bytes ≠ []) (w' : Workspace) :
    w.cacheSocket.components ≠ w'.tempSocket.components := by
  intro heq
  rw [components_cacheSocket h, components_tempSocket] at heq
  have hlast := congrArg List.getLast? heq
  have hdaemon : (Path.ofString "node_modules/.cache/checkd/daemon.sock").rest.getLast? =
      some (.name (Utf8.ofString "daemon.sock")) := by decide
  have hrest : (Path.ofString "node_modules/.cache/checkd/daemon.sock").rest ≠ [] := by decide
  rw [List.getLast?_append_of_ne_nil _ hrest, hdaemon, List.getLast?_concat, Option.some.injEq] at hlast
  have hfirst : (Utf8.ofString "daemon.sock").head? ≠ some 99 := by decide
  rw [Component.name.inj hlast] at hfirst
  exact hfirst rfl

/-! ## Lengths -/

/-- The longest directory for temporary files in which each socket has a path short enough. -/
def maxTemp : Nat := 71

theorem length_endpoint_le {w : Workspace} (h : w.temp.bytes.length ≤ maxTemp) :
    w.endpoint.bytes.length ≤ maxSocketPath := by
  by_cases hdeep : w.IsDeep
  · have hjoin : w.tempSocket.bytes.length ≤ w.temp.bytes.length + (socketName w.root).length + 1 :=
      Path.length_join_le w.temp ⟨socketName w.root⟩
    rw [length_socketName] at hjoin
    rw [endpoint_of_isDeep hdeep]
    exact Nat.le_trans hjoin (Nat.add_le_add_right h 29)
  · rw [endpoint_of_not_isDeep hdeep]
    exact Nat.not_lt.mp hdeep

/-! ## Apart -/

/-- Two workspaces have one socket if they are one, or if both are deep and the digests of their roots begin alike. -/
def Collides (w w' : Workspace) : Prop :=
  w.root = w'.root ∨
    w.IsDeep ∧ w'.IsDeep ∧ (Sha256.digest w.root.bytes).take 8 = (Sha256.digest w'.root.bytes).take 8

/-- How the sockets of two workspaces are kept apart, whether their paths are compared by what they mean or by how
they are written. -/
structure KeepsApart (w w' : Workspace) : Prop where
  same_iff : w.endpoint.same w'.endpoint = true ↔ w.Collides w'
  eq_iff : w.endpoint = w'.endpoint ↔ w.Collides w'
  schemes : ¬w.IsDeep → w'.IsDeep → w.endpoint.same w'.endpoint = false

section Apart

variable {root root' : Place} {env env' : Environment}

theorem endpoint_eq_of_collides (htemp : env.get? "TMPDIR" = env'.get? "TMPDIR")
    (h : (of root.path env).Collides (of root'.path env')) :
    (of root.path env).endpoint = (of root'.path env').endpoint := by
  have hdir : tempDir env = tempDir env' := by rw [tempDir, tempDir, htemp]
  rcases h with hroot | ⟨hdeep, hdeep', hdigest⟩
  · have hworkspace : of root.path env = of root'.path env' := by
      rw [of, of, hdir, show root.path = root'.path from hroot]
    rw [hworkspace]
  · have hname : socketName root.path = socketName root'.path :=
      socketName_eq_iff.mpr (fingerprint_eq_iff.mpr hdigest)
    rw [endpoint_of_isDeep hdeep, endpoint_of_isDeep hdeep']
    show (tempDir env).join ⟨socketName root.path⟩ = (tempDir env').join ⟨socketName root'.path⟩
    rw [hdir, hname]

theorem collides_of_same (h : ∀ name ∈ root, IsEntry name) (h' : ∀ name ∈ root', IsEntry name)
    (htemp : env.get? "TMPDIR" = env'.get? "TMPDIR")
    (hsame : (of root.path env).endpoint.components = (of root'.path env').endpoint.components) :
    (of root.path env).Collides (of root'.path env') := by
  have hroot : (of root.path env).root.bytes ≠ [] := List.cons_ne_nil _ _
  have hroot' : (of root'.path env').root.bytes ≠ [] := List.cons_ne_nil _ _
  by_cases hdeep : (of root.path env).IsDeep <;> by_cases hdeep' : (of root'.path env').IsDeep
  · -- both are named by their fingerprints
    have hdir : tempDir env = tempDir env' := by rw [tempDir, tempDir, htemp]
    rw [endpoint_of_isDeep hdeep, endpoint_of_isDeep hdeep', components_tempSocket, components_tempSocket] at hsame
    rw [show (of root.path env).temp = (of root'.path env').temp from hdir, List.append_right_inj,
      List.singleton_inj, Component.name.injEq, socketName_eq_iff, fingerprint_eq_iff] at hsame
    exact .inr ⟨hdeep, hdeep', hsame⟩
  · rw [endpoint_of_isDeep hdeep, endpoint_of_not_isDeep hdeep'] at hsame
    exact absurd hsame.symm (components_cacheSocket_ne hroot' _)
  · rw [endpoint_of_not_isDeep hdeep, endpoint_of_isDeep hdeep'] at hsame
    exact absurd hsame (components_cacheSocket_ne hroot _)
  · -- both are at the same place below their roots
    rw [endpoint_of_not_isDeep hdeep, endpoint_of_not_isDeep hdeep', components_cacheSocket hroot,
      components_cacheSocket hroot', List.append_left_inj] at hsame
    exact .inl (congrArg Place.path (Place.eq_of_components_path h h' hsame))

/-- **Different workspaces have different sockets**, for processes with one directory for temporary files and up to a
collision of digests, for which nothing is asked of the digest. If the path of this directory is no longer than
`maxTemp`, a socket can be made for each workspace. -/
theorem keepsApart_of_tempDir (h : ∀ name ∈ root, IsEntry name) (h' : ∀ name ∈ root', IsEntry name)
    (htemp : env.get? "TMPDIR" = env'.get? "TMPDIR") :
    KeepsApart (of root.path env) (of root'.path env') ∧
      ∀ w : Workspace, w.temp.bytes.length ≤ maxTemp → w.endpoint.bytes.length ≤ maxSocketPath := by
  have heq := @endpoint_eq_of_collides root root' env env' htemp
  have hcollides := collides_of_same h h' htemp
  refine ⟨⟨⟨fun hsame => hcollides (eq_of_beq hsame), fun hc => ?_⟩, ⟨fun he => hcollides (congrArg _ he), heq⟩,
    fun hdeep hdeep' => ?_⟩, fun w => length_endpoint_le⟩
  · rw [heq hc]
    exact Path.same_refl _
  · rw [endpoint_of_not_isDeep hdeep, endpoint_of_isDeep hdeep']
    exact beq_false_of_ne (components_cacheSocket_ne (List.cons_ne_nil _ _) _)

end Apart

/-- The directory for temporary files of a process may be the cache directory of the one workspace. -/
theorem keepsApart_in_cache :
    let env : Environment := ⟨[("TMPDIR", Utf8.ofString "/srv/node_modules/.cache/checkd")]⟩
    let w := of (Place.path [Utf8.ofString "srv"]) env
    let w' := of (deepRoot 57).path env
    ((∀ name ∈ ([Utf8.ofString "srv"] : Place), IsEntry name) ∧ (∀ name ∈ deepRoot 57, IsEntry name) ∧
        ¬w.IsDeep ∧ w'.IsDeep ∧ w'.temp.bytes.length ≤ maxTemp) ∧
      KeepsApart w w' ∧ w.endpoint.same w'.endpoint = false ∧ w'.endpoint.bytes.length ≤ maxSocketPath := by
  intro env w w'
  have hroot : ∀ name ∈ ([Utf8.ofString "srv"] : Place), IsEntry name := by decide
  have hroot' : ∀ name ∈ deepRoot 57, IsEntry name := by decide
  have hdeep : ¬w.IsDeep := by decide
  have hdeep' : w'.IsDeep := by decide
  have htemp : w'.temp.bytes.length ≤ maxTemp := by decide
  obtain ⟨hapart, hlength⟩ := @keepsApart_of_tempDir _ _ env env hroot hroot' rfl
  exact ⟨⟨hroot, hroot', hdeep, hdeep', htemp⟩, hapart, hapart.schemes hdeep hdeep', hlength w' htemp⟩

end Workspace

end WarmCheck
