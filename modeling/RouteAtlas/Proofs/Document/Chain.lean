import Mathlib.Data.List.Perm.Subperm
import Mathlib.Logic.Relation
import Mathlib.Order.WellFoundedSet
import RouteAtlas.Proofs.Document.Mounting

/-!
# Chains of mounts

A file that mounts another one may itself be mounted. `chains` lists the ways in which mounts lead
from a file that nothing mounts to a given file. A document does not follow them: a route appears
below the last mount of each chain, whatever comes before it. Only where all mounts of a file are
made by files that are not mounted is the last mount the whole chain.
-/

namespace RouteAtlas

/-- One mount: a file puts the routes of another file below a path. -/
structure Mount where
  mounter : Text
  path : Text
  target : Text
deriving DecidableEq

/-- The mounts that a file makes, as far as its imports tell which file a name stands for. -/
def Facts.mountsMade (f : Facts) : List Mount :=
  f.mounts.flatMap fun (localName, paths) =>
    match f.imports.get? localName with
    | some target => paths.map fun path => ⟨f.file, path, target⟩
    | none => []

/-- The mounts that some files make, file after file. -/
def mountsOf (fs : List Facts) : List Mount := fs.flatMap Facts.mountsMade

/-- The mounts of one file by others. -/
def mountsTo (fs : List Facts) (file : Text) : List Mount :=
  (mountsOf fs).filter fun m => m.target = file

/-- One file mounts another. -/
def Mounts (fs : List Facts) (mounter target : Text) : Prop :=
  ∃ m ∈ mountsOf fs, m.mounter = mounter ∧ m.target = target

/-- No file is mounted, directly or through others, by itself. -/
def MountsAcyclic (fs : List Facts) : Prop := ∀ file, ¬ Relation.TransGen (Mounts fs) file file

/-- The chains of `n` mounts from a file that no file mounts to the given one, outermost mount
first. A mount that is made twice makes two chains. -/
def chainsOfLength (fs : List Facts) : (n : Nat) → Text → List (List Mount)
  | 0, file => if mountsTo fs file = [] then [[]] else []
  | n + 1, file =>
    (mountsTo fs file).flatMap fun m => (chainsOfLength fs n m.mounter).map (· ++ [m])

/-- The chains of mounts to a file. No chain without a cycle has more mounts than there are. -/
def chains (fs : List Facts) (file : Text) : List (List Mount) :=
  (List.range ((mountsOf fs).length + 1)).flatMap fun n => chainsOfLength fs n file

/-- The path of a route below all mounts of a chain. -/
def joinChain (chain : List Mount) (path : Text) : Text :=
  chain.foldr (fun m below => joinPath m.path below) path

/-- A route below one mount. -/
def Route.below (r : Route) (m : Mount) : Route := { r with path := joinPath m.path r.path }

/-- The copies of a route below the chains of mounts to its file. -/
def nestedCopies (fs : List Facts) (r : Route) : List Route :=
  (chains fs r.source).map fun chain => { r with path := joinChain chain r.path }

/-- The routes of some files, each below every chain of mounts to its file. -/
def nestedRoutes (fs : List Facts) : List Route :=
  fs.flatMap fun f => f.routes.flatMap (nestedCopies fs)

section Mounts

variable {fs : List Facts} {file : Text}

theorem mem_mountsTo {m : Mount} : m ∈ mountsTo fs file ↔ m ∈ mountsOf fs ∧ m.target = file := by
  simp [mountsTo]

/-- The paths of the mounts to a file are its mount paths. -/
theorem map_path_mountsTo : (mountsTo fs file).map (·.path) = mountPaths fs file := by
  simp only [mountsTo, mountsOf, Facts.mountsMade, mountPaths, Facts.pathsTo, List.filter_flatMap,
    List.map_flatMap]
  congr
  funext f
  congr
  funext mount
  cases f.imports.get? mount.1 with
  | none => simp
  | some target => by_cases h : target = file <;> simp [List.filter_map, Function.comp_def, h]

theorem mountsTo_eq_nil_iff : mountsTo fs file = [] ↔ mountPaths fs file = [] := by
  rw [← map_path_mountsTo, List.map_eq_nil_iff]

/-- A route of a mounted file has one copy for each mount of the file, below the path of that mount
and of no other. -/
theorem copies_eq_map_mountsTo {r : Route} (mounted : mountsTo fs r.source ≠ []) :
    (MountPoints.ofFacts fs).copies r = (mountsTo fs r.source).map r.below := by
  rw [MountPoints.copies_ofFacts, if_neg (mountsTo_eq_nil_iff.not.mp mounted), ← map_path_mountsTo,
    List.map_map]
  rfl

/-- Mounts that go from lower to higher ranks make no cycle. -/
theorem MountsAcyclic.of_rank (rank : Text → Nat)
    (rising : ∀ m ∈ mountsOf fs, rank m.mounter < rank m.target) : MountsAcyclic fs := by
  have rises {g f : Text} (path : Relation.TransGen (Mounts fs) g f) : rank g < rank f := by
    induction path with
    | single step =>
        obtain ⟨m, made, rfl, rfl⟩ := step
        exact rising m made
    | tail _ step ih =>
        obtain ⟨m, made, rfl, rfl⟩ := step
        exact ih.trans (rising m made)
  intro file cycle
  exact Nat.lt_irrefl _ (rises cycle)

/-- Without cycles, going from a file to one that mounts it comes to an end. -/
theorem MountsAcyclic.wellFounded (acyclic : MountsAcyclic fs) : WellFounded (Mounts fs) := by
  let files : Set Text :=
    {file | file ∈ (mountsOf fs).map (·.mounter) ++ (mountsOf fs).map (·.target)}
  have finite : files.Finite := List.finite_toSet _
  have : IsStrictOrder Text (Relation.TransGen (Mounts fs)) :=
    { irrefl := acyclic, trans := fun _ _ _ h k => h.trans k }
  have wf : files.WellFoundedOn (Relation.TransGen (Mounts fs)) := finite.wellFoundedOn
  refine Subrelation.wf ?_ (Set.wellFoundedOn_iff.mp wf)
  intro g f step
  refine ⟨.single step, ?_, ?_⟩
  · obtain ⟨m, made, rfl, -⟩ := step
    exact List.mem_append_left _ (List.mem_map_of_mem made)
  · obtain ⟨m, made, -, rfl⟩ := step
    exact List.mem_append_right _ (List.mem_map_of_mem made)

end Mounts

section Chains

variable {fs : List Facts}

theorem mem_chainsOfLength_succ {n : Nat} {file : Text} {chain : List Mount} :
    chain ∈ chainsOfLength fs (n + 1) file ↔
      ∃ m ∈ mountsTo fs file, ∃ before ∈ chainsOfLength fs n m.mounter, before ++ [m] = chain := by
  simp [chainsOfLength]

theorem length_of_mem_chainsOfLength {n : Nat} {file : Text} {chain : List Mount}
    (h : chain ∈ chainsOfLength fs n file) : chain.length = n := by
  induction n generalizing file chain with
  | zero =>
      obtain ⟨-, rfl⟩ : mountsTo fs file = [] ∧ chain = [] := by simpa [chainsOfLength] using h
      rfl
  | succ n ih =>
      obtain ⟨m, -, before, mem, rfl⟩ := mem_chainsOfLength_succ.mp h
      rw [List.length_append, ih mem, List.length_singleton]

/-- Each mount of a chain is made, and its target leads on to the end of the chain. -/
theorem leads_of_mem_chainsOfLength {n : Nat} {file : Text} {chain : List Mount}
    (h : chain ∈ chainsOfLength fs n file) :
    ∀ m ∈ chain, m ∈ mountsOf fs ∧ Relation.ReflTransGen (Mounts fs) m.target file := by
  induction n generalizing file chain with
  | zero =>
      obtain ⟨-, rfl⟩ : mountsTo fs file = [] ∧ chain = [] := by simpa [chainsOfLength] using h
      simp
  | succ n ih =>
      obtain ⟨last, isLast, before, mem, rfl⟩ := mem_chainsOfLength_succ.mp h
      obtain ⟨made, rfl⟩ := mem_mountsTo.mp isLast
      intro m inChain
      rcases List.mem_append.mp inChain with earlier | atEnd
      · obtain ⟨madeToo, leads⟩ := ih mem m earlier
        exact ⟨madeToo, leads.tail ⟨last, made, rfl, rfl⟩⟩
      · obtain rfl := List.mem_singleton.mp atEnd
        exact ⟨made, .refl⟩

/-- Without cycles no chain holds a mount twice. -/
theorem nodup_of_mem_chainsOfLength (acyclic : MountsAcyclic fs) {n : Nat} {file : Text}
    {chain : List Mount} (h : chain ∈ chainsOfLength fs n file) : chain.Nodup := by
  induction n generalizing file chain with
  | zero =>
      obtain ⟨-, rfl⟩ : mountsTo fs file = [] ∧ chain = [] := by simpa [chainsOfLength] using h
      exact List.nodup_nil
  | succ n ih =>
      obtain ⟨last, isLast, before, mem, rfl⟩ := mem_chainsOfLength_succ.mp h
      have made := (mem_mountsTo.mp isLast).1
      rw [List.nodup_append]
      refine ⟨ih mem, List.nodup_singleton _, ?_⟩
      intro m earlier k atEnd same
      obtain rfl := List.mem_singleton.mp atEnd
      subst same
      have leads := (leads_of_mem_chainsOfLength mem m earlier).2
      exact acyclic _ (.tail' leads ⟨m, made, rfl, rfl⟩)

/-- Without cycles a chain has at most as many mounts as there are. -/
theorem mem_chains (acyclic : MountsAcyclic fs) {n : Nat} {file : Text} {chain : List Mount}
    (h : chain ∈ chainsOfLength fs n file) : chain ∈ chains fs file := by
  have different := nodup_of_mem_chainsOfLength acyclic h
  have made : chain ⊆ mountsOf fs := fun m mem => (leads_of_mem_chainsOfLength h m mem).1
  have bound : chain.length ≤ (mountsOf fs).length := (different.subperm made).length_le
  rw [length_of_mem_chainsOfLength h] at bound
  exact List.mem_flatMap.mpr ⟨n, List.mem_range.mpr (Nat.lt_succ_of_le bound), h⟩

/-- Without cycles some chain leads to each file. -/
theorem exists_mem_chainsOfLength (acyclic : MountsAcyclic fs) (file : Text) :
    ∃ n chain, chain ∈ chainsOfLength fs n file := by
  induction file using acyclic.wellFounded.induction with
  | _ file ih =>
    cases mounts : mountsTo fs file with
    | nil => exact ⟨0, [], by simp [chainsOfLength, mounts]⟩
    | cons m rest =>
        have isMount : m ∈ mountsTo fs file := by simp [mounts]
        obtain ⟨made, target⟩ := mem_mountsTo.mp isMount
        obtain ⟨n, before, mem⟩ := ih m.mounter ⟨m, made, rfl, target⟩
        exact ⟨n + 1, before ++ [m], mem_chainsOfLength_succ.mpr ⟨m, isMount, before, mem, rfl⟩⟩

/-- The last mounts of the chains to a file are the mounts of the file. -/
theorem mem_mountsTo_iff_last (acyclic : MountsAcyclic fs) {file : Text} {m : Mount} :
    m ∈ mountsTo fs file ↔ ∃ chain ∈ chains fs file, chain.getLast? = some m := by
  constructor
  · intro isMount
    obtain ⟨n, before, mem⟩ := exists_mem_chainsOfLength acyclic m.mounter
    have longer : before ++ [m] ∈ chainsOfLength fs (n + 1) file :=
      mem_chainsOfLength_succ.mpr ⟨m, isMount, before, mem, rfl⟩
    exact ⟨before ++ [m], mem_chains acyclic longer, List.getLast?_concat⟩
  · rintro ⟨chain, mem, last⟩
    obtain ⟨n, -, mem⟩ := List.mem_flatMap.mp mem
    cases n with
    | zero =>
        obtain ⟨-, rfl⟩ : mountsTo fs file = [] ∧ chain = [] := by simpa [chainsOfLength] using mem
        simp at last
    | succ n =>
        obtain ⟨k, isMount, before, -, rfl⟩ := mem_chainsOfLength_succ.mp mem
        rw [List.getLast?_concat] at last
        obtain rfl := Option.some.inj last
        exact isMount

/-- A file that is mounted only by files that are not mounted has one chain for each mount. -/
theorem chains_of_direct {file : Text} (mounted : mountsTo fs file ≠ [])
    (direct : ∀ m ∈ mountsTo fs file, mountsTo fs m.mounter = []) :
    chains fs file = (mountsTo fs file).map fun m => [m] := by
  have one : chainsOfLength fs 1 file = (mountsTo fs file).map fun m => [m] := by
    rw [List.map_eq_flatMap]
    exact List.flatMap_congr fun m isMount => by simp [chainsOfLength, direct m isMount]
  have longer (n : Nat) : chainsOfLength fs (n + 2) file = [] := by
    rw [List.eq_nil_iff_forall_not_mem]
    intro chain mem
    obtain ⟨m, isMount, before, mem, -⟩ := mem_chainsOfLength_succ.mp mem
    obtain ⟨k, above, -⟩ := mem_chainsOfLength_succ.mp mem
    rw [direct m isMount] at above
    simp at above
  obtain ⟨k, made⟩ : ∃ k, (mountsOf fs).length = k + 1 := by
    obtain ⟨m, isMount⟩ := List.exists_mem_of_ne_nil _ mounted
    exact Nat.exists_eq_succ_of_ne_zero (List.length_pos_of_mem (mem_mountsTo.mp isMount).1).ne'
  have none : chainsOfLength fs 0 file = [] := by simp [chainsOfLength, mounted]
  rw [chains, made, List.range_succ_eq_map, List.range_succ_eq_map]
  simp [List.flatMap_map, none, one, longer]

/-- Only the last mount of a chain counts for a document. A route of a mounted file appears once for
each mount of the file, below that mount alone, and these are the last mounts of the chains that
lead to the file. Where all of them are made by files that are not mounted, each is a whole
chain. -/
theorem Document.routes_below_last_mounts (fs : List Facts) (acyclic : MountsAcyclic fs) :
    ((Document.ofFacts fs).routes = fs.flatMap fun f => f.routes.flatMap fun r =>
        if mountsTo fs r.source = [] then [r] else (mountsTo fs r.source).map r.below) ∧
      (∀ file m, m ∈ mountsTo fs file ↔ ∃ chain ∈ chains fs file, chain.getLast? = some m) ∧
      ∀ r : Route, mountsTo fs r.source ≠ [] →
        (∀ m ∈ mountsTo fs r.source, mountsTo fs m.mounter = []) →
          (mountsTo fs r.source).map r.below = nestedCopies fs r := by
  refine ⟨?_, fun file m => mem_mountsTo_iff_last acyclic, ?_⟩
  · rw [Document.routes_eq_copies]
    congr
    funext f
    congr
    funext r
    split
    · next unmounted =>
        rw [MountPoints.copies_ofFacts, if_pos (mountsTo_eq_nil_iff.mp unmounted)]
    · next mounted => exact copies_eq_map_mountsTo mounted
  · intro r mounted direct
    rw [nestedCopies, chains_of_direct mounted direct, List.map_map]
    rfl

end Chains

/-- Three files: `app` mounts `apis` at `/api`, which has a route `/health` and mounts `users` at
`/users`, which has a route `/list`. -/
def nestedMounts : List Facts := [
  { Facts.empty "/p/app.js" with
    imports := [("apis", "/p/apis.js")], mounts := [("apis", ["/api"])] },
  { Facts.empty "/p/apis.js" with
    imports := [("users", "/p/users.js")], mounts := [("users", ["/users"])]
    routes := [⟨"/health", "get", some "apis", "/p/apis.js", [], none⟩] },
  { Facts.empty "/p/users.js" with
    routes := [⟨"/list", "get", some "users", "/p/users.js", [], none⟩] }]

theorem acyclic_nestedMounts : MountsAcyclic nestedMounts :=
  .of_rank List.length (by decide)

/-- The mount of `users` is the last one of the chain to it, and the mount of `apis` is a chain. -/
theorem Document.routes_nestedMounts :
    MountsAcyclic nestedMounts ∧
      (∀ m, m ∈ mountsTo nestedMounts "/p/users.js" ↔
        ∃ chain ∈ chains nestedMounts "/p/users.js", chain.getLast? = some m) ∧
      ∀ r : Route, r.source = "/p/apis.js" →
        (mountsTo nestedMounts r.source).map r.below = nestedCopies nestedMounts r := by
  have parts := routes_below_last_mounts nestedMounts acyclic_nestedMounts
  refine ⟨acyclic_nestedMounts, parts.2.1 _, ?_⟩
  intro r source
  apply parts.2.2 r
  · rw [source]
    decide
  · rw [source]
    decide

/-- Mounts do not compose: `/list` stands below `/users` and not below `/api/users`. -/
theorem Document.routes_not_nested :
    MountsAcyclic nestedMounts ∧
      (Document.ofFacts nestedMounts).routes.map (·.path) =
        ["/api/health", "/users/list"].map Text.ofString ∧
      (nestedRoutes nestedMounts).map (·.path) =
        ["/api/health", "/api/users/list"].map Text.ofString ∧
      ¬ (Document.ofFacts nestedMounts).routes.Perm (nestedRoutes nestedMounts) := by
  have actual : (Document.ofFacts nestedMounts).routes.map (·.path) =
      ["/api/health", "/users/list"].map Text.ofString := by decide
  have nested : (nestedRoutes nestedMounts).map (·.path) =
      ["/api/health", "/api/users/list"].map Text.ofString := by decide
  refine ⟨acyclic_nestedMounts, actual, nested, ?_⟩
  intro same
  have paths := same.map (·.path)
  rw [actual, nested] at paths
  revert paths
  decide

end RouteAtlas
