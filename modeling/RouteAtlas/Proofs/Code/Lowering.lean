import RouteAtlas.Code.Lowering

/-!
# Lowering, child by child

`Expr.ofTree` reads the children of a node by recursion over their list. Each of these recursions is
a search for one child or a selection of some, followed by reading what was found; with that, an
expression node is read by one equation over the roles of its children.
-/

namespace RouteAtlas

namespace Expr

variable (source : ByteArray)

/-- The expression of a node that may be missing. -/
def ofTree? : Option Tree → Except LiteralError Expr
  | some t => ofTree source t
  | none => .ok .missing

theorem ofRole_eq (role : String) (ts : List Tree) :
    ofRole source role ts = ofTree? source (ts.find? (·.fills role)) := by
  induction ts with
  | nil => rfl
  | cons t rest ih =>
      rw [ofRole, List.find?_cons]
      cases h : t.fills role with
      | true => rfl
      | false => exact ih

theorem ofFirstOperand_eq (ts : List Tree) :
    ofFirstOperand source ts = ofTree? source (ts.find? Tree.isOperand) := by
  induction ts with
  | nil => rfl
  | cons t rest ih =>
      rw [ofFirstOperand, List.find?_cons]
      cases h : t.isOperand with
      | true => rfl
      | false => exact ih

/-- The operands are read one after the other. They are read from the last one on, but there is only
one way to fail. -/
theorem ofOperands_eq (ts : List Tree) :
    ofOperands source ts = (ts.filter Tree.isOperand).mapM (ofTree source) := by
  induction ts with
  | nil => rfl
  | cons t rest ih =>
      rw [ofOperands, ih]
      cases operand : t.isOperand with
      | false => simp [operand]
      | true =>
          rw [List.filter_cons_of_pos operand, List.mapM_cons]
          cases ofTree source t with
          | ok e => cases (rest.filter Tree.isOperand).mapM (ofTree source) <;> rfl
          | error e =>
              cases (rest.filter Tree.isOperand).mapM (ofTree source) with
              | ok es => rfl
              | error f =>
                  cases e
                  cases f
                  rfl

/-- The arguments are the operands among the children of the node that fills the role; there are
none if that node is a template. -/
theorem ofArguments_eq (ts : List Tree) :
    ofArguments source ts =
      (ts.find? (·.fills "arguments")).bind fun a =>
        if a.kind = "arguments" then some (ofOperands source a.children) else none := by
  induction ts with
  | nil => rfl
  | cons t rest ih =>
      obtain ⟨kind, named, role, start, stop, children⟩ := t
      rw [ofArguments, List.find?_cons]
      cases h : role == some "arguments" with
      | true => simp [Tree.fills, h]
      | false => simpa [Tree.fills, h] using ih

end Expr

end RouteAtlas
