import RouteAtlas.Disk

/-!
# Real places

A path is resolved by replacing every link on the way by what it leads to. Names of which nothing
is there are kept as they are, and two dots then go back one name. A link that leads back to itself
ends the search: the rest of the path is followed without looking. Names are looked for as the file
tree spells them and stay spelled as they were.
-/

namespace RouteAtlas

/-- A resolved path; it is incomplete if a link on the way leads back to itself. -/
structure Resolution where
  place : Place
  complete : Bool

mutual

/-- The number of links at and below an entry. -/
def Entry.linkCount : Entry → Nat
  | .file _ => 0
  | .link _ => 1
  | .folder es => Entry.linkCountAmong es

/-- The number of links at and below some entries. -/
def Entry.linkCountAmong : List (Text × Entry) → Nat
  | [] => 0
  | (_, e) :: rest => Entry.linkCount e + Entry.linkCountAmong rest

end

namespace Disk

/-- Resolves names from a place, where `enter` resolves the target of a link. -/
def resolveWith (enter : Place → Place → List Text → Resolution) (d : Disk) :
    Place → List Text → Resolution
  | here, [] => ⟨here, true⟩
  | here, name :: names =>
    if name = [] ∨ name = Text.ofString "." then resolveWith enter d here names
    else if name = Text.ofString ".." then resolveWith enter d here.tail names
    else
      match d.entryAt? ((name :: here).map Name.respell) with
      | some (.link target) =>
        let start := if target.head? = some slash then [] else here
        let r := enter (name :: here) start (Text.splitAt slash target)
        if r.complete then resolveWith enter d r.place names
        else ⟨r.place.walk names, false⟩
      | _ => resolveWith enter d (name :: here) names

/-- Resolves names from a place, inside the links `inside`; the number of further links that can be
entered is `more`. -/
def resolveFrom (d : Disk) : (more : Nat) → (inside : List Place) → Place → List Text → Resolution
  | 0, _ => fun here names => ⟨here.walk names, false⟩
  | more + 1, inside =>
    d.resolveWith fun link start names =>
      if link ∈ inside then ⟨link, false⟩ else d.resolveFrom more (link :: inside) start names

/-- The real place of a path. -/
def realPlace (d : Disk) (p : Path) : Except FileError Place :=
  match spelling p.toText with
  | .error c => .error ⟨c, p.toText⟩
  | .ok _ =>
    let start := if p.isAbsolute then [] else d.current
    let r := d.resolveFrom (Entry.linkCountAmong d.entries + 1) [] start p.names
    match d.entry r.place.toText with
    | .error .tooManyLinks => .error ⟨.linkLoop, p.toText⟩
    | _ => .ok r.place

/-- Puts the user's own folder in the place of a first name `~`. -/
def expandHome (d : Disk) (p : Path) : Except FileError Path :=
  match p.names with
  | first :: rest =>
    if p.isAbsolute ∨ first.head? ≠ some (CodePoint.ofChar '~') then .ok p
    else if first = Text.ofString "~" then
      let home := Path.ofText d.home
      .ok ⟨home.root, home.names ++ rest⟩
    else .error ⟨.unknownUser, p.toText⟩
  | [] => .ok p

end Disk

end RouteAtlas
