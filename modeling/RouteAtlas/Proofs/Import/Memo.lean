import RouteAtlas.Facts.File
import RouteAtlas.Proofs.Run.Yields

/-!
# Remembered answers

An answer about an import is remembered by the folder of the importer and the specifier, and the
file tree decides it by these two. So every remembered answer is the one that the files give to each
importer in the folder, however its path is spelled, and a missing file is remembered as missing.
-/

namespace RouteAtlas

namespace Import

/-- Every remembered answer is the one that the files give. -/
def Memo.IsSound (d : Disk) (memo : Memo) : Prop :=
  ∀ folder specifier answer, Assoc.get? (folder, specifier) memo = some answer →
    answer = locate d folder specifier

theorem Memo.isSound_nil (d : Disk) : Memo.IsSound d [] := by
  intro folder specifier answer found
  cases found

theorem Memo.IsSound.put {d : Disk} {memo : Memo} (sound : Memo.IsSound d memo) (folder : Folder)
    (specifier : Text) :
    Memo.IsSound d (Assoc.put (folder, specifier) (locate d folder specifier) memo) := by
  intro other otherSpecifier answer found
  rw [Assoc.get?_put] at found
  split at found
  · next same =>
      obtain ⟨rfl, rfl⟩ := Prod.mk.inj same
      exact (Option.some.inj found).symm
  · exact sound other otherSpecifier answer found

/-- Remembered or not, the answer is that of the files. -/
theorem yields_remember (d : Disk) (importer specifier : Text) :
    Yields (Memo.IsSound d) (remember d importer specifier) (resolve d importer specifier) := by
  intro memo sound
  cases found : Assoc.get? (folderOf d.current importer, specifier) memo with
  | some answer =>
      have run : (remember d importer specifier).run memo = (answer, memo) := by
        simp [remember, found, StateT.run_bind]
        rfl
      rw [run]
      exact ⟨sound _ _ _ found, sound⟩
  | none =>
      have run : (remember d importer specifier).run memo =
          (resolve d importer specifier,
            memo.put (folderOf d.current importer, specifier) (resolve d importer specifier)) := by
        simp [remember, found, StateT.run_bind]
        rfl
      rw [run]
      exact ⟨rfl, sound.put _ _⟩

end Import

section Answers

variable {σ : Type} {Inv : σ → Prop} {resolve : Text → StateM σ (Option Text)}
  {answer : Text → Option Text}

theorem yields_recordImport
    (answers : ∀ specifier, Yields Inv (resolve specifier) (answer specifier))
    (imports : Assoc Text Text) (request : ImportRequest) :
    Yields Inv (recordImport resolve imports request)
      (recordImport (m := Id) answer imports request) := by
  unfold recordImport
  refine (answers request.specifier).bind ?_
  cases answer request.specifier with
  | some path => exact .pure _
  | none => exact .pure _

/-- Where requests have certain answers, statements state certain facts. -/
theorem Facts.yields_ofStatements
    (answers : ∀ specifier, Yields Inv (resolve specifier) (answer specifier)) (reading : Reading)
    (file : Text) (ss : List Statement) :
    Yields Inv (ofStatements reading resolve file ss)
      (ofStatements (m := Id) reading answer file ss) :=
  (Yields.foldlM (yields_recordImport answers) _ []).bind (.pure _)

end Answers

/-- The facts of a parsed text when each of its imports is looked up in the file tree. -/
def ParsedText.factsIn (d : Disk) (reading : Reading) (p : ParsedText) :
    Except LiteralError Facts :=
  p.statements.map (Facts.ofStatements (m := Id) reading (Import.resolve d p.path) p.path)

theorem Facts.yields_ofFile (d : Disk) (reading : Reading) (p : ParsedText) :
    Yields (Import.Memo.IsSound d) (ofFile reading d p).run (p.factsIn d reading) := by
  rw [ofFile, run_ofParsed, ParsedText.factsIn]
  cases p.statements with
  | ok ss =>
      have answers := Import.yields_remember d p.path
      exact (Facts.yields_ofStatements answers reading p.path ss).map Except.ok
  | error e => exact .pure _

end RouteAtlas
