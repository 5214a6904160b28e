import Ceylon.Model.Graph

/-!
# Describing declarations

How messages name the kind of a declaration, and its signature as it would be declared.
-/

namespace Ceylon.Model.Graph

/-- A noun for the kind of a declaration. -/
def kindText (g : Graph) (d : DeclId) : String :=
  match (g.decl d).shape with
  | .ofClass .. => "class"
  | .ofInterface _ => "interface"
  | .method .. => if (g.containerType? d).isSome then "method" else "function"
  | .value _ isVariable => if isVariable then "variable" else "value"
  | .getter .. => "getter"
  | .setter .. => "setter"
  | .parameter .. => "parameter"
  | .typeParameter .. => "type parameter"

/-- A type parameter with its variance. -/
def typeParamText (g : Graph) (p : DeclId) : String :=
  let decl := g.decl p
  match decl.shape with
  | .typeParameter .covariant _ => "out " ++ decl.name
  | .typeParameter .contravariant _ => "in " ++ decl.name
  | _ => decl.name

/-- Type parameters in angle brackets; nothing if there are none. -/
def typeParamsText (g : Graph) : List DeclId → String
  | [] => ""
  | ps => "<" ++ ", ".intercalate (ps.map g.typeParamText) ++ ">"

/-- A parameter.  A sequenced one shows the type of its elements. -/
def paramText (g : Graph) (p : DeclId) : String :=
  let decl := g.decl p
  match decl.shape with
  | .parameter type defaulted sequenced =>
    let element := match sequenced, type with
      | true, .applied ⟨_, [a]⟩ => a
      | _, t => t
    g.typeText element ++ (if sequenced then "..." else "") ++ " " ++ decl.name
      ++ (if defaulted then " = ..." else "")
  | _ => decl.name

/-- Parameters in parentheses. -/
def paramsText (g : Graph) (ps : List DeclId) : String :=
  "(" ++ ", ".intercalate (ps.map g.paramText) ++ ")"

/-- The satisfied types of a declaration. -/
def satisfiedText (g : Graph) : List Applied → String
  | [] => ""
  | ts => " satisfies " ++ " & ".intercalate (ts.map g.appliedText)

/-- The signature of a declaration. -/
def describe (g : Graph) (d : DeclId) : String :=
  let decl := g.decl d
  let body := match decl.shape with
    | .ofClass generic params abstract _ =>
      (if abstract then "abstract " else "") ++ "class " ++ decl.name
        ++ g.typeParamsText generic.params
        ++ (params.map g.paramsText).getD ""
        ++ (generic.extended.map fun t => " extends " ++ g.appliedText t).getD ""
        ++ g.satisfiedText generic.satisfied
    | .ofInterface generic =>
      "interface " ++ decl.name ++ g.typeParamsText generic.params
        ++ g.satisfiedText generic.satisfied
    | .method _ typeParams params void formal =>
      (if formal then "formal " else "") ++ (if void then "void" else g.typeText (g.typeOf d)) ++ " "
        ++ decl.name ++ g.typeParamsText typeParams ++ g.paramsText params
    | .value _ isVariable =>
      (if isVariable then "variable " else "") ++ g.typeText (g.typeOf d) ++ " " ++ decl.name
    | .getter .. => g.typeText (g.typeOf d) ++ " " ++ decl.name
    | .setter .. => "assign " ++ decl.name
    | .parameter .. => g.paramText d
    | .typeParameter .. => g.typeParamText d
  (if decl.shared then "shared " else "") ++ body

end Ceylon.Model.Graph
