import RouteAtlas.Proofs.Document.Reordering

/-!
# More files

The documents of two lists of files tell most of the document of both lists together. Middlewares
for every path add up. The paths of a middleware name, and each server detail, are those of the
second list if one of its files gives them, and else those of the first: they are those of the last
file that gives them. A file that gives nothing changes nothing, wherever it stands.
-/

namespace RouteAtlas

namespace Facts

/-- The file gives a detail a value. -/
def Gives (f : Facts) (k : Detail) : Prop := k ∈ f.details.map Prod.fst

/-- The file gives paths to a middleware name. -/
def Guards (f : Facts) (name : Text) : Prop := name ∈ f.locals.map Prod.fst

instance (k : Detail) : DecidablePred (Gives · k) := fun _ => inferInstanceAs (Decidable (_ ∈ _))

instance (name : Text) : DecidablePred (Guards · name) :=
  fun _ => inferInstanceAs (Decidable (_ ∈ _))

/-- The file has no routes and no mounts, and gives no details and no middlewares. What it declares
and imports does not matter. -/
structure IsNeutral (f : Facts) : Prop where
  routes : f.routes = []
  mounts : f.mounts = []
  details : f.details = []
  globals : f.globals = []
  locals : f.locals = []

end Facts

section Entries

variable {κ ν : Type} (entries : Facts → List (κ × ν)) (fs : List Facts) (key : κ)

theorem mem_keys_flatMap :
    key ∈ (fs.flatMap entries).map Prod.fst ↔ ∃ f ∈ fs, key ∈ (entries f).map Prod.fst := by
  rw [List.map_flatMap, List.mem_flatMap]

/-- The last value that files give to a key is the last one of the last file that gives it any. -/
theorem getLast?_given_flatMap [DecidableEq κ] {gives : Facts → Prop} [DecidablePred gives]
    (gives_iff : ∀ f, gives f ↔ key ∈ (entries f).map Prod.fst) :
    (Assoc.given key (fs.flatMap entries)).getLast? =
      (fs.filter fun f => gives f).getLast?.bind fun f =>
        (Assoc.given key (entries f)).getLast? := by
  induction fs using List.reverseRecOn with
  | nil => rfl
  | append_singleton earlier f ih =>
      rw [List.flatMap_append, List.flatMap_singleton, Assoc.getLast?_given_append, ih,
        List.filter_append]
      by_cases own : gives f
      · rw [if_pos ((gives_iff f).mp own), List.filter_cons_of_pos (by simpa using own),
          List.filter_nil, List.getLast?_concat, Option.bind_some]
      · rw [if_neg (mt (gives_iff f).mpr own), List.filter_cons_of_neg (by simpa using own),
          List.filter_nil, List.append_nil]

end Entries

namespace Document

/-! ## Two lists of files -/

theorem get?_locals_append (xs ys : List Facts) (name : Text) :
    (ofFacts (xs ++ ys)).locals.get? name =
      if ∃ f ∈ ys, f.Guards name then (ofFacts ys).locals.get? name
      else (ofFacts xs).locals.get? name := by
  simp only [get?_locals_ofFacts, List.flatMap_append, Assoc.getLast?_given_append,
    mem_keys_flatMap, Facts.Guards]

theorem get_server_append (xs ys : List Facts) (k : Detail) :
    (ofFacts (xs ++ ys)).server.get k =
      if ∃ f ∈ ys, f.Gives k then (ofFacts ys).server.get k else (ofFacts xs).server.get k := by
  simp only [get_server_ofFacts, List.flatMap_append, Assoc.getLast?_given_append,
    mem_keys_flatMap, Facts.Gives]
  split <;> rfl

/-- A middleware name has all the paths of the last file that gives it any, and no other paths. -/
theorem get?_locals_eq_last {fs : List Facts}
    (distinct : ∀ f ∈ fs, (f.locals.map Prod.fst).Nodup) (name : Text) :
    (ofFacts fs).locals.get? name =
      (fs.filter fun f => f.Guards name).getLast?.bind fun f => f.locals.get? name := by
  have guards (f : Facts) : f.Guards name ↔ name ∈ f.locals.map Prod.fst := .rfl
  rw [get?_locals_ofFacts, getLast?_given_flatMap _ fs name guards]
  refine Option.bind_congr fun f last => Assoc.getLast?_given_of_nodup (distinct f ?_) name
  exact List.mem_of_mem_filter (List.mem_of_getLast? last)

/-- A server detail has the last value of the last file that gives it any. -/
theorem get_server_eq_last (fs : List Facts) (k : Detail) :
    (ofFacts fs).server.get k =
      ((fs.filter fun f => f.Gives k).getLast?.bind fun f =>
        (Assoc.given k f.details).getLast?).getD (ServerDetails.unknown.get k) := by
  have gives (f : Facts) : f.Gives k ↔ k ∈ f.details.map Prod.fst := .rfl
  rw [get_server_ofFacts, getLast?_given_flatMap _ fs k gives]

/-- The middleware names stand in the order in which the files first give them. -/
theorem keys_locals_ofFacts (fs : List Facts) :
    (ofFacts fs).locals.map Prod.fst = (fs.flatMap fun f => f.locals.map Prod.fst).eraseDups := by
  rw [locals_ofFacts, Assoc.keys_putAll, List.map_flatMap]

/-! ## A file that gives nothing -/

theorem mountPoints_neutral {f : Facts} (h : f.IsNeutral) (xs ys : List Facts) :
    MountPoints.ofFacts (xs ++ f :: ys) = MountPoints.ofFacts (xs ++ ys) := by
  have skip (points : MountPoints) : points.add f = points := by
    rw [MountPoints.add, h.mounts]
    rfl
  simp only [MountPoints.ofFacts, List.foldl_append, List.foldl_cons, skip]

theorem ofFacts_neutral {f : Facts} (h : f.IsNeutral) (xs ys : List Facts) :
    ofFacts (xs ++ f :: ys) = ofFacts (xs ++ ys) := by
  have server (d : ServerDetails) : d.merge f = d := by
    rw [ServerDetails.merge, h.details]
    rfl
  have locals (a : Assoc Text (List Text)) : a.putAll f.locals = a := by
    rw [h.locals]
    rfl
  simp only [ofFacts, mountPoints_neutral h, List.foldl_append, List.foldl_cons,
    List.flatMap_append, List.flatMap_cons, server, locals, h.routes, h.globals, List.nil_append]

/-- What the document of two lists of files has from each of them: the middlewares for every path of
both, file after file; for a middleware name and for a server detail what the second list gives, if
one of its files does, and else what the first gives. A name has all the paths of the last file that
gives it any, and the names stand in the order in which they are first given. A detail has the value
of the last file that gives it one, and what is set for a server that never listens if there is no
such file. A file that gives nothing can be put anywhere. -/
theorem ofFacts_append (xs ys : List Facts) :
    (ofFacts (xs ++ ys)).globals = (ofFacts xs).globals ++ (ofFacts ys).globals ∧
      (ofFacts (xs ++ ys)).globals = (xs ++ ys).flatMap (·.globals) ∧
      (∀ name, (ofFacts (xs ++ ys)).locals.get? name =
        if ∃ f ∈ ys, f.Guards name then (ofFacts ys).locals.get? name
        else (ofFacts xs).locals.get? name) ∧
      ((∀ f ∈ xs ++ ys, (f.locals.map Prod.fst).Nodup) →
        ∀ name, (ofFacts (xs ++ ys)).locals.get? name =
          ((xs ++ ys).filter fun f => f.Guards name).getLast?.bind fun f =>
            f.locals.get? name) ∧
      (ofFacts (xs ++ ys)).locals.map Prod.fst =
        ((xs ++ ys).flatMap fun f => f.locals.map Prod.fst).eraseDups ∧
      (∀ k, (ofFacts (xs ++ ys)).server.get k =
        if ∃ f ∈ ys, f.Gives k then (ofFacts ys).server.get k
        else (ofFacts xs).server.get k) ∧
      (∀ k, (ofFacts (xs ++ ys)).server.get k =
        (((xs ++ ys).filter fun f => f.Gives k).getLast?.bind fun f =>
          (Assoc.given k f.details).getLast?).getD (ServerDetails.unknown.get k)) ∧
      ∀ f : Facts, f.IsNeutral → ofFacts (xs ++ f :: ys) = ofFacts (xs ++ ys) := by
  refine ⟨?_, rfl, get?_locals_append xs ys, ?_, ?_, get_server_append xs ys, ?_, ?_⟩
  · exact List.flatMap_append
  · exact fun distinct name => get?_locals_eq_last distinct name
  · exact keys_locals_ofFacts (xs ++ ys)
  · exact get_server_eq_last (xs ++ ys)
  · exact fun f neutral => ofFacts_neutral neutral xs ys

/-- A second file with the name of a server, which imports what the server mounts. -/
def idleFile : Facts :=
  { Facts.empty "/p/app.js" with
    imports := [("users", "/p/users.js")], bindings := [⟨"app", .null, false⟩], servers := ["app"] }

/-- Among the rival servers it changes nothing. The last of them still decides about `auth` and the
port, and no file about the host. -/
theorem ofFacts_append_rivalServers :
    idleFile.IsNeutral ∧
      ofFacts (rivalServers.take 2 ++ idleFile :: rivalServers.drop 2) =
        ofFacts (rivalServers.take 2 ++ rivalServers.drop 2) ∧
      (ofFacts (rivalServers.take 2 ++ rivalServers.drop 2)).locals.get? ("auth" : Text) =
        some [("/b" : Text)] ∧
      (ofFacts (rivalServers.take 2)).server.get .portNumber = .int 80 ∧
      (ofFacts (rivalServers.take 2 ++ rivalServers.drop 2)).server.get .portNumber = .int 81 ∧
      (ofFacts (rivalServers.take 2 ++ rivalServers.drop 2)).server.get .host = .null := by
  obtain ⟨-, -, -, last, -, -, details, neutral⟩ :=
    ofFacts_append (rivalServers.take 2) (rivalServers.drop 2)
  have idle : idleFile.IsNeutral := ⟨rfl, rfl, rfl, rfl, rfl⟩
  refine ⟨idle, neutral idleFile idle, ?_, rfl, ?_, ?_⟩
  · rw [last (by decide) "auth"]
    rfl
  · rw [details .portNumber]
    rfl
  · rw [details .host]
    rfl

end Document

end RouteAtlas
