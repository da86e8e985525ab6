import RouteAtlas.Document.Merge
import RouteAtlas.Facts.File

/-!
# The mount switch

A reading records mounts or leaves them out. Two readings of the same statements that differ only in
this are run side by side: after every statement the facts of the one are those of the other without
the mounts. So a document made without mounts differs from one made with them in its routes alone.
-/

namespace RouteAtlas

/-- The same instructions, with mounts recorded or left out. -/
def Reading.withMounts (reading : Reading) (mounts : Bool) : Reading :=
  { reading with mounts := mounts }

/-- The same facts without any mount. -/
def Facts.eraseMounts (f : Facts) : Facts := { f with mounts := [] }

namespace CallSite

theorem use_eraseMounts (arguments : List Expr) (f : Facts) :
    use arguments f.eraseMounts = (use arguments f).eraseMounts := by
  unfold use
  split <;> rfl

theorem listen_eraseMounts (table : BindingTable) (arguments : List Expr) (f : Facts) :
    listen table arguments f.eraseMounts = (listen table arguments f).eraseMounts := rfl

theorem route_eraseMounts (reading : Reading) (mounts : Bool) (router : Option Text) (method : Text)
    (comments : List Text) (arguments : List Expr) (f : Facts) :
    route (reading.withMounts mounts) router method comments arguments f.eraseMounts =
      (route reading router method comments arguments f).eraseMounts := by
  unfold route
  split <;> rfl

/-- A mount is the only fact that the erasure takes away. -/
theorem mount_eraseMounts (arguments : List Expr) (f : Facts) :
    (mount arguments f).eraseMounts = f.eraseMounts := by
  unfold mount
  split <;> rfl

theorem dispatch_eraseMounts (reading : Reading) (mounts : Bool) (table : BindingTable)
    (comments : List Text) (name property : Text) (arguments : List Expr) (f : Facts) :
    dispatch (reading.withMounts mounts) table comments name property arguments f.eraseMounts =
      (dispatch reading table comments name property arguments f).eraseMounts := by
  simp only [dispatch, use_eraseMounts, listen_eraseMounts, route_eraseMounts,
    apply_ite Facts.eraseMounts]

/-- Both readings come to the same facts, but for the mount that only the one records. -/
theorem record_eraseMounts (reading : Reading) (table : BindingTable) (comments : List Text)
    (name property : Text) (arguments : List Expr) (f : Facts) :
    record (reading.withMounts false) table comments name property arguments f.eraseMounts =
      (record (reading.withMounts true) table comments name property arguments f).eraseMounts := by
  simp only [record, dispatch_eraseMounts, apply_ite Facts.eraseMounts, mount_eraseMounts, ite_self]
  rfl

theorem visit_eraseMounts (reading : Reading) (table : BindingTable) (comments : List Text)
    (e : Expr) (f : Facts) :
    visit (reading.withMounts false) table comments e f.eraseMounts =
      (visit (reading.withMounts true) table comments e f).eraseMounts := by
  unfold visit
  split
  · exact record_eraseMounts reading table comments _ _ _ f
  · rfl

end CallSite

/-- Applying `g` to every result of a run over a list is applying it to the list of results. -/
private theorem mapM_map_result {m : Type → Type} [Monad m] [LawfulMonad m] {α β γ : Type}
    (f : α → m β) (g : β → γ) (xs : List α) :
    (xs.mapM fun x => g <$> f x) = List.map g <$> xs.mapM f := by
  induction xs with
  | nil => simp
  | cons x rest ih => simp [List.mapM_cons, ih]

namespace Facts

/-- The same progress without any mount. -/
def Progress.eraseMounts (p : Progress) : Progress := { p with facts := p.facts.eraseMounts }

/-- One statement keeps the two readings side by side. -/
theorem Progress.step_eraseMounts (reading : Reading) (p : Progress) (s : Statement) :
    step (reading.withMounts false) p.eraseMounts s =
      (step (reading.withMounts true) p s).eraseMounts := by
  cases s with
  | declaration declarators => rfl
  | importing localName source => rfl
  | expression comments e =>
      simp only [step, eraseMounts, CallSite.visit_eraseMounts]

theorem Progress.foldl_step_eraseMounts (reading : Reading) (p : Progress) (ss : List Statement) :
    ss.foldl (step (reading.withMounts false)) p.eraseMounts =
      (ss.foldl (step (reading.withMounts true)) p).eraseMounts := by
  induction ss generalizing p with
  | nil => rfl
  | cons s rest ih => rw [List.foldl_cons, step_eraseMounts, ih, List.foldl_cons]

section Lawful

variable {m : Type → Type} [Monad m] [LawfulMonad m]

/-- The switch takes the mounts away and leaves the rest, the requests to `resolve` included. -/
theorem ofStatements_eraseMounts (reading : Reading) (resolve : Text → m (Option Text))
    (file : Text) (ss : List Statement) :
    ofStatements (reading.withMounts false) resolve file ss =
      eraseMounts <$> ofStatements (reading.withMounts true) resolve file ss := by
  have run := Progress.foldl_step_eraseMounts reading ⟨.empty, .empty file⟩ ss
  have start : Progress.eraseMounts ⟨.empty, .empty file⟩ = ⟨.empty, .empty file⟩ := rfl
  rw [start] at run
  simp only [ofStatements, run, map_bind, map_pure]
  rfl

theorem ofParsed_eraseMounts (reading : Reading) (resolve : Text → Text → m (Option Text))
    (p : ParsedText) :
    ofParsed (reading.withMounts false) resolve p =
      eraseMounts <$> ofParsed (reading.withMounts true) resolve p := by
  apply ExceptT.ext
  rw [ExceptT.run_map, run_ofParsed, run_ofParsed]
  cases p.statements with
  | error e => simp [Except.map]
  | ok ss => simp [ofStatements_eraseMounts, Except.map]

end Lawful

end Facts

theorem MountPoints.ofFacts_eraseMounts (fs : List Facts) :
    MountPoints.ofFacts (fs.map Facts.eraseMounts) = [] := by
  rw [ofFacts, List.foldl_map]
  induction fs with
  | nil => rfl
  | cons f rest ih => exact ih

/-- Without mounts every route stands once as it is, and nothing else of a document changes. -/
theorem Document.ofFacts_eraseMounts (fs : List Facts) :
    Document.ofFacts (fs.map Facts.eraseMounts) =
      { Document.ofFacts fs with routes := fs.flatMap (·.routes) } := by
  have server (d : ServerDetails) (f : Facts) : d.merge f.eraseMounts = d.merge f := rfl
  have routes (rs : List Route) : MountPoints.apply [] rs = rs := by
    induction rs with
    | nil => rfl
    | cons r rest ih => exact congrArg (r :: ·) ih
  simp only [ofFacts, MountPoints.ofFacts_eraseMounts, routes, List.foldl_map, List.flatMap_map,
    server]
  rfl

/-- Turning mounts off takes the mounts out of the facts and changes nothing else, whatever the
statements and however requests are answered. So it turns the routes of a document into the routes
of the files, one after the other, and changes nothing else of the document. -/
theorem Facts.mounts_touch_mounts_only {σ : Type} (reading : Reading)
    (resolve : Text → Text → StateM σ (Option Text)) :
    (∀ (file : Text) (ss : List Statement),
      ofStatements (reading.withMounts false) (resolve file) file ss =
        eraseMounts <$> ofStatements (reading.withMounts true) (resolve file) file ss) ∧
    (∀ p : ParsedText,
      ofParsed (reading.withMounts false) resolve p =
        eraseMounts <$> ofParsed (reading.withMounts true) resolve p) ∧
    ∀ ps : List ParsedText,
      Document.ofFacts <$> ps.mapM (ofParsed (reading.withMounts false) resolve) =
        (fun fs => { Document.ofFacts fs with routes := fs.flatMap (·.routes) }) <$>
          ps.mapM (ofParsed (reading.withMounts true) resolve) := by
  refine ⟨fun file => ofStatements_eraseMounts reading (resolve file) file,
    ofParsed_eraseMounts reading resolve, ?_⟩
  intro ps
  have each : ofParsed (reading.withMounts false) resolve =
      fun p => eraseMounts <$> ofParsed (reading.withMounts true) resolve p :=
    funext (ofParsed_eraseMounts reading resolve)
  rw [each, mapM_map_result, Functor.map_map]
  simp only [Document.ofFacts_eraseMounts]

end RouteAtlas
