import ModelSchemas.Text.Basic

/-!
# Expression trees

An expression is a chain of calls joined by dots, or raw text that is kept as written. A call is a
bare member such as `string`, or an invocation such as `min(1)` whose arguments are expressions
again; either may carry generic arguments, kept as text. `Node.render` writes a tree.
-/

namespace ModelSchemas

namespace Expression

mutual

/-- An expression: text kept as written, or a chain of calls that may start with a dot. -/
inductive Node where
  | raw (text : Text)
  | chain (leadingDot : Bool) (calls : List Call)

/-- One member of a chain, not invoked or invoked with arguments. -/
inductive Call where
  | member (name : Text) (typeArgs : Option Text)
  | invoke (name : Text) (typeArgs : Option Text) (args : List Node)

end

instance : Inhabited Node := ⟨.raw []⟩

/-! ## Parts of a call -/

namespace Call

/-- The name before the generic arguments and the parentheses. -/
def name : Call → Text
  | member name _ => name
  | invoke name _ _ => name

/-- The text between the angle brackets, if there are any. -/
def typeArgs : Call → Option Text
  | member _ typeArgs => typeArgs
  | invoke _ typeArgs _ => typeArgs

/-- The arguments, if the member is invoked. -/
def args? : Call → Option (List Node)
  | member _ _ => none
  | invoke _ _ args => some args

/-- Whether parentheses follow the name. -/
def isInvoked (c : Call) : Bool := c.args?.isSome

end Call

/-! ## Rendering -/

/-- Generic arguments in their angle brackets. -/
def renderTypeArgs : Option Text → Text
  | none => []
  | some typeArgs => '<' :: typeArgs ++ ['>']

mutual

/-- The text of an expression. -/
def Node.render : Node → Text
  | .raw text => text
  | .chain leadingDot calls =>
    (if leadingDot then ['.'] else []) ++ List.intercalate ['.'] (renderCalls calls)

/-- The text of one call; arguments are separated by a comma and a space. -/
def Call.render : Call → Text
  | .member name typeArgs => name ++ renderTypeArgs typeArgs
  | .invoke name typeArgs args =>
    name ++ renderTypeArgs typeArgs ++
      '(' :: List.intercalate [',', ' '] (renderNodes args) ++ [')']

/-- The texts of several calls. -/
def renderCalls : List Call → List Text
  | [] => []
  | call :: rest => call.render :: renderCalls rest

/-- The texts of several expressions. -/
def renderNodes : List Node → List Text
  | [] => []
  | node :: rest => node.render :: renderNodes rest

end

theorem renderCalls_eq_map (calls : List Call) : renderCalls calls = calls.map Call.render := by
  induction calls with
  | nil => simp [renderCalls]
  | cons call rest ih => simp [renderCalls, ih]

theorem renderNodes_eq_map (nodes : List Node) : renderNodes nodes = nodes.map Node.render := by
  induction nodes with
  | nil => simp [renderNodes]
  | cons node rest ih => simp [renderNodes, ih]

/-! ## Questions about chains -/

/-- The name of the namespace that holds the schema constructors. -/
def namespaceName : Text := "z"

/-- The bare namespace. -/
def Call.isNamespace : Call → Bool
  | .member name none => name = namespaceName
  | _ => false

/-- Whether a chain starts with the bare namespace. -/
def hasNamespaceHead (leadingDot : Bool) : List Call → Bool
  | [] => false
  | head :: _ => !leadingDot && head.isNamespace

/-- Whether one of the calls of a chain, its namespace head apart, has one of the names. -/
def hasCall (names : List Text) (leadingDot : Bool) (calls : List Call) : Bool :=
  (if hasNamespaceHead leadingDot calls then calls.drop 1 else calls).any
    fun call => names.contains call.name

/-- Whether a chain ends by invoking `name` without arguments. -/
def endsWith (name : Text) (calls : List Call) : Bool :=
  match calls.getLast? with
  | some (.invoke last _ []) => last = name
  | _ => false

end Expression

end ModelSchemas
