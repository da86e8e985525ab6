import RouteAtlas.Path

/-!
# The log

A log has up to two sinks, the console and a file. A record passes the threshold of the log and then
that of each sink. A log that was never set up shows warnings and worse on the console, without
anything around the message.
-/

namespace RouteAtlas

/-- How much a record matters. -/
inductive Level
  | debug
  | info
  | warning
  | error
  | critical
deriving DecidableEq

namespace Level

/-- The levels in order. -/
def severity : Level → Nat
  | debug => 10
  | info => 20
  | warning => 30
  | error => 40
  | critical => 50

/-- The word for a level. -/
def word : Level → Text
  | debug => "DEBUG"
  | info => "INFO"
  | warning => "WARNING"
  | error => "ERROR"
  | critical => "CRITICAL"

instance : LE Level := ⟨fun a b => a.severity ≤ b.severity⟩

instance (a b : Level) : Decidable (a ≤ b) := inferInstanceAs (Decidable (a.severity ≤ b.severity))

end Level

/-- Where records go. Without a console level the log was never set up. -/
structure Log where
  least : Level
  console : Option Level
  file : Option Place
deriving DecidableEq

/-- A record of a log, with the name of the log that it was given to. -/
structure Record where
  name : Text
  level : Level
  message : Text
deriving DecidableEq

namespace Log

/-- The name of the log, and the beginning of the names of its parts. -/
def rootName : Text := "docly"

/-- The name of a part of the log; a part without a name is the whole log. -/
def partName (part : Text) : Text :=
  if part = [] then rootName else rootName ++ "." ++ part

/-- The name is that of the whole log or of a part below it. What is above a name is looked for in
front of its dots, the last one first, and of two dots in a row the first is passed over. Names that
end in dots, which can come in between, are left out of account. -/
def IsOwn (name : Text) : Prop :=
  name = rootName ∨
    ((name.drop rootName.length).takeWhile (· = CodePoint.ofChar '.')).length % 2 = 1

instance (name : Text) : Decidable (IsOwn name) := inferInstanceAs (Decidable (_ ∨ _))

/-- A part is below the whole log unless its name begins with a dot. -/
theorem isOwn_partName {part : Text} (noDot : part.head? ≠ some (CodePoint.ofChar '.')) :
    IsOwn (partName part) := by
  cases part with
  | nil => exact .inl rfl
  | cons c rest =>
      have other : c ≠ CodePoint.ofChar '.' := fun same => noDot (congrArg some same)
      have dots : ((partName (c :: rest)).drop rootName.length).takeWhile
          (· = CodePoint.ofChar '.') = [CodePoint.ofChar '.'] := by
        change List.takeWhile _ (CodePoint.ofChar '.' :: c :: rest) = _
        rw [List.takeWhile_cons_of_pos (by decide),
          List.takeWhile_cons_of_neg (by simpa using other)]
      exact .inr (congrArg (·.length % 2) dots)

/-- The log before it is set up. -/
def unset : Log := ⟨.warning, none, none⟩

/-- The log that is set up: the console shows debug records only on request, and a file holds all
records. -/
def setUp (verbose : Bool) (file : Option Place) : Log :=
  let shown := if verbose then .debug else .info
  ⟨if file.isSome then .debug else shown, some shown, file⟩

/-- The log that takes the records of a name: this one, or one that was never set up if the name is
none of its own. -/
def under (log : Log) (name : Text) : Log := if IsOwn name then log else unset

/-- The levels of the sinks. -/
def sinkLevels (log : Log) : List Level :=
  log.console.toList ++ log.file.toList.map fun _ => Level.debug

/-- The line of a record on the console, if the record is shown. -/
def consoleLine (log : Log) (r : Record) : Option Text :=
  let log := log.under r.name
  if log.least ≤ r.level then
    match log.console with
    | none => some (r.message ++ "\n")
    | some shown =>
      if shown ≤ r.level then
        some ("[docly] " ++ r.level.word ++ " " ++ r.message ++ "\n")
      else none
  else none

/-- The line of a record in a file, if there is a file; `stamp` comes first. -/
def fileLine (log : Log) (stamp : Text) (r : Record) : Option (Place × Text) :=
  let log := log.under r.name
  if log.least ≤ r.level then
    log.file.map fun place =>
      (place, stamp ++ r.level.word ++ " " ++ r.name ++ ": " ++ r.message ++ "\n")
  else none

theorem fileLine_eq_none {log : Log} (noFile : log.file = none) (stamp : Text) (r : Record) :
    log.fileLine stamp r = none := by
  have nowhere : (log.under r.name).file = none := by
    unfold under
    split
    · exact noFile
    · rfl
  rw [fileLine, nowhere]
  exact ite_self none

end Log

end RouteAtlas
