import Ceylon.Proofs.Evaluation
import Ceylon.Proofs.Loading
import Ceylon.Proofs.Outlook
import Ceylon.Proofs.ResolutionOrder

/-!
# The state in which programs begin

The state before any tree is loaded is a fixed one, so that its properties can be computed: what packages, modules
and units there are, that the declarations of the language module can be gone through (`State.isStocked`), and that
the declarations which optional types are made of are as they should be (`State.isStandard`).  To load a tree with a
single file is to load that file (`SourceTree.load_eq_loadSingle`), so what the analysis of a fixed file comes to can be
computed in the same way (`SourceTree.analyze_of_analyzedFrom?`).
-/

namespace Ceylon

namespace Model

/-! ## Types built from a graph -/

mutual

/-- Whether a type is built from the declarations of a graph, and nothing in it is unknown. -/
def Ty.isBuilt (g : Graph) : Ty → Bool
  | .unknown => false
  | .applied a => a.isBuilt g
  | .union cases none => !cases.isEmpty && casesBuilt g cases
  | .union cases (some a) => !cases.isEmpty && casesBuilt g cases && a.isBuilt g

/-- Whether an application is built from the declarations of a graph. -/
def Applied.isBuilt (g : Graph) : Applied → Bool
  | { decl, args } =>
    decl.index < g.decls.size && args.length == (g.decl decl).shape.typeParams.length && argsBuilt g args

/-- Whether arguments are built from the declarations of a graph. -/
def argsBuilt (g : Graph) : List Ty → Bool
  | [] => true
  | t :: ts => t.isBuilt g && argsBuilt g ts

/-- Whether the cases of a union are built from the declarations of a graph. -/
def casesBuilt (g : Graph) : List Applied → Bool
  | [] => true
  | a :: as => !g.hierarchy.isBottom a.decl && a.isBuilt g && casesBuilt g as

end

end Model

namespace Analysis

open Model Syntax Text Files

/-! ## Source trees of a single file -/

namespace SourceTree

/-- Loads a source tree whose only file has been read. -/
def loadSingle (root path : String) (tree : Syntax.CompilationUnit) : Analyze (Option LoadError) :=
  traced { phase := "load", unit := root } do
    traced { phase := Phase.parsed.text, unit := root } (pure ())
    modify fun s => { s with stack := some {} }
    let package ← packageNamed []
    ownPackage package
    let u ← addUnit path tree package
    let outcome ← declareModule u
    modify fun s => { s with stack := none }
    return outcome

section

variable {t : SourceTree} {f : SourceFile}

theorem loadFiles_singleton (p : PackageId) : t.loadFiles p [f] = t.addSource p f >>= declareModule := by
  rw [loadFiles]
  refine bind_congr fun u => (bind_congr fun outcome => ?_).trans (bind_pure _)
  cases outcome <;> rfl

theorem loadFolder_singleton {name path : String} {segments : List String}
    (hname : (f.name == descriptorName) = false) :
    t.loadFolder (.mk name path segments [f] []) = (do
      let segments := match (← get).stack with
        | some stack => stack.segments
        | none => []
      let package ← packageNamed segments
      ownPackage package
      t.addSource package f >>= declareModule) := by
  rw [loadFolder]
  refine (bind_congr fun outcome => ?_).trans ((bind_pure _).trans ?_)
  · cases outcome <;> rfl
  · simp only [loadPackage, List.partition, List.partition.loop, hname, List.reverse_nil, List.reverse_cons,
      List.nil_append, loadFiles_singleton]
    rfl

theorem load_eq_loadSingle {exclude : List String} {name path : String} {segments : List String}
    (hscan : t.files.scan t.root exclude = .ok (.mk name path segments [f] []))
    (hname : (f.name == descriptorName) = false) (hfault : (t.reading f).fault = none) :
    t.load exclude = loadSingle t.root f.path (t.reading f).unit := by
  have hsource : ∀ p, t.addSource p f = addUnit f.path (t.reading f).unit p := fun p =>
    funext fun s => Prod.ext rfl (addSource_of_no_fault t p f hfault s)
  rw [load, loadSingle, hscan]
  simp only [loadFolder_singleton hname, hsource]
  rfl

/-- What the analysis of a source tree comes to whose only file has no more than a number of tokens, if it begins
in the given state. -/
def analyzedFrom? (t : SourceTree) (limit : Nat) (exclude : List String) (initial : State) : Option State :=
  match t.files.scan t.root exclude with
  | .ok (.mk _ _ _ [f] []) =>
    let path := Path.join [t.root, f.path]
    (Syntax.readBytes? limit ⟨f.path, path⟩ (bytesOf ((t.files.read path).toOption.getD ""))).bind fun r =>
      if (f.name == descriptorName) = false ∧ r.fault.isNone then
        some (run.run ((loadSingle t.root f.path r.unit).run initial).2).2
      else none
  | _ => none

theorem analyze_snd (t : SourceTree) (exclude : List String) :
    (t.analyze exclude).2 = (run.run ((t.load exclude).run .initial).2).2 := by
  rw [analyze]
  -- The state is computed when it is compared with another one, so it must not stand in the goal.
  generalize State.initial = s
  rcases (t.load exclude).run s with ⟨outcome, loaded⟩
  dsimp only

theorem analyze_of_analyzedFrom? (t : SourceTree) (limit : Nat) (exclude : List String) (P : State → Bool)
    (h : (t.analyzedFrom? limit exclude .initial).any P = true) : P (t.analyze exclude).2 = true := by
  rw [analyze_snd]
  generalize State.initial = initial at h ⊢
  obtain ⟨s, hs, hP⟩ := (Option.any_eq_true _ _).mp h
  unfold analyzedFrom? at hs
  split at hs
  · next f hscan =>
    obtain ⟨r, hr, hs⟩ := Option.bind_eq_some_iff.mp hs
    split at hs
    · next hplain =>
      rw [← Option.some.inj hs] at hP
      have hreading : t.reading f = r := Syntax.readUnit_eq_of_readBytes? hr
      rw [load_eq_loadSingle hscan hplain.1 (by simpa [hreading] using hplain.2), hreading]
      exact hP
    · cases hs
  · cases hs

end

end SourceTree

namespace State

/-! ## Going through a state -/

/-- Whether a declaration of the language module is well formed. -/
def isSettledDecl (g : Graph) (decl : Declaration) : Bool :=
  decl.scope.all (fun σ => match σ with
    | .block _ => false
    | _ => true)
  && decl.shape.generic.extended.all (·.isBuilt g) && decl.shape.generic.satisfied.all (·.isBuilt g)
  && (decl.shape.isType || decl.unit.isSome && decl.shape.type.isBuilt g)
  && (!decl.shape.type.isKnown || decl.shape.type.isBuilt g)
  && (decl.shape.kind ≠ .typeParameter || decl.shape.typeParams.isEmpty)

/-- Whether a state is that of a language module that is well formed and complete. -/
def isStocked (s : State) : Bool :=
  s.graph.decls.all (isSettledDecl s.graph)
  && s.builtins.simple.all (fun d => (Applied.mk d []).isBuilt s.graph)
  && s.builtins.generic.all (fun p => p.1.index < s.graph.decls.size &&
    (s.graph.decl p.1).shape.typeParams.length == p.2)
  && s.types.refs.toList.all (fun p => p.1.unit = languageUnit && p.2.isBuilt s.graph)
  && s.types.exprs.toList.all (fun p => p.2.isBuilt s.graph)
  && s.graph.inferred.isEmpty
  && s.checked.toList.all (fun k => k.unit = languageUnit)
  && s.units.size = 1
  && (s.unit languageUnit).isBound && (s.unit languageUnit).failure.isNone
  && (s.unit languageUnit).diagnostics.isEmpty && (s.unit languageUnit).imports.isEmpty
  && Applied.isBuilt s.graph default

/-- Whether the declarations that optional types are made of are as they should be, and are among those of a
language module that has been checked. -/
def isStandard (s : State) : Bool :=
  let h := s.graph.hierarchy
  let b := s.builtins
  (match h.extended b.nothing with
    | some ⟨d, []⟩ => d = b.void
    | _ => false)
  && (h.satisfied b.nothing).isEmpty && (h.supertypes b.void).isEmpty
  && (h.params b.nothing).isEmpty && (h.params b.void).isEmpty
  && !h.isBottom b.nothing && !h.isBottom b.void && h.isBottom b.bottom
  && [b.nothing, b.void, b.bottom].all (·.index < s.graph.decls.size)
  && s.graph.decls.all (fun d => d.unit.all (· = languageUnit))
  && (s.unit languageUnit).phase = .checked

end State

/-! ## The initial state -/

/-- The packages, modules and units that are there from the start. -/
def startingInventory : Inventory where
  packages := #[{ name := languagePath, module := some languageModule }]
  modules := #[{ name := languagePath, packages := [⟨0⟩] },
    { name := [], isDefault := true, dependencies := [languageModule] }]
  units := #[⟨languageFile, ⟨0⟩, .absent⟩]
  stack := none

/-- A class with a type parameter, and a function that makes a box and says nothing of its type. -/
def boxMaker : SourceTree where
  files := ⟨[.folder "src" [.file "boxes.ceylon"
    "class Box<T>(T content) \x7b\x7d\nfunction box(Integer n) \x7b return Box<Integer>(n); \x7d\n"]]⟩
  root := "/src"

/-- Whether a state is one in which the box maker has been analyzed: there are no problems, the call has the type of
a box of integers, and the function is known to be declared without a type. -/
def isBoxed (s : State) : Bool :=
  s.userUnits = [⟨1⟩] && (s.unit ⟨1⟩).diagnostics.isEmpty
    && (s.unit ⟨1⟩).tree.outline.nodes.any (fun n => match n with
      | .expr _ => true
      | _ => false)
    && (s.types.get? ⟨⟨1⟩, 21⟩).any (fun t => match t with
      | .applied ⟨⟨57⟩, [.applied ⟨⟨50⟩, []⟩]⟩ => true
      | _ => false)
    && 60 < s.graph.decls.size && (s.graph.decl ⟨60⟩).shape.isTyped
    && !(s.graph.decl ⟨60⟩).shape.type.isKnown

/-- A source tree with nothing but a unit at its top. -/
def loneUnit (text : String) : SourceTree where
  files := ({} : Files.Tree).write "/_repl.ceylon" text
  root := "/"

/-- A value in a unit at the top of a tree, and a name in it that means nothing. -/
def lostName : SourceTree :=
  loneUnit "value _it = x;"

/-- Whether there is a problem at the place of the name. -/
def isLost (s : State) : Bool :=
  s.userUnits = [⟨1⟩] && (s.unit ⟨1⟩).diagnostics.any fun d =>
    d.location.any fun l => l.file = "_repl.ceylon" && l.line = 1 && l.col = 13

/-- The texts of a unit as it grows: a value, an import that is put before it, and a value of the imported type that
is put behind it and is given the first one. -/
def growing : List String :=
  ["Integer a = 1;",
    "import ceylon.language \x7b Count = Integer \x7d\nInteger a = 1;",
    "import ceylon.language \x7b Count = Integer \x7d\nInteger a = 1;\nCount b = a;"]

/-- Whether there are no problems in the unit at the top of a tree. -/
def isClean (s : State) : Bool :=
  s.userUnits = [⟨1⟩] && (s.unit ⟨1⟩).diagnostics.isEmpty

/-- The passes on two bound units up to the resolution of their names. -/
def resolveBoth (u v : UnitId) : Analyze Unit := do
  discard (resolveModule u)
  discard (resolveModule v)
  resolveDependencies
  discard (resolveNames u)
  discard (resolveNames v)

/-- The analysis of two units in a package of their own up to the resolution of their names. -/
def joinUnits (first second : CompilationUnit) : Analyze Unit := do
  discard (packageNamed [])
  let u ← addUnit "first.ceylon" first ⟨1⟩
  bindDeclarations u
  let v ← addUnit "second.ceylon" second ⟨1⟩
  bindDeclarations v
  resolveBoth u v

/-- The texts of two units.  In each, the type of a value is left out that depends on the other unit. -/
def crossing : String × String :=
  ("value p = q;\nvalue r = 1;", "value q = 2;\nvalue s = r;")

/-- The two units, as they are read. -/
def crossingUnits : CompilationUnit × CompilationUnit :=
  ((readUnit ⟨"first.ceylon", "first.ceylon"⟩ (Text.Glyph.ofString crossing.1)).unit,
    (readUnit ⟨"second.ceylon", "second.ceylon"⟩ (Text.Glyph.ofString crossing.2)).unit)

/-- Whether the two units can be checked in both orders, with four types inferred, and no inference needs its own
result. -/
def isCrossed (s : State) : Bool :=
  [[⟨1⟩, ⟨2⟩], [⟨2⟩, ⟨1⟩]].all fun us =>
    (s.checkedAll us).circular = s.circular && (s.checkedAll us).graph.inferred.toList.length = 4

/-- Two units are added to a package of their own. -/
def addBoth (first second : CompilationUnit) : Analyze Unit := do
  discard (packageNamed [])
  discard (addUnit "first.ceylon" first ⟨1⟩)
  discard (addUnit "second.ceylon" second ⟨1⟩)

/-- Passes on the two units: those on each of them are called in turn, and only the second one is checked. -/
def passBoth : Analyze Unit := do
  bindDeclarations ⟨1⟩
  bindDeclarations ⟨2⟩
  discard (resolveModule ⟨2⟩)
  discard (resolveModule ⟨1⟩)
  discard (resolveNames ⟨1⟩)
  discard (resolveNames ⟨2⟩)
  checkExpressions ⟨2⟩

/-- Whether the passes take the two units through their phases. -/
def isPassed (s : State) : Bool :=
  s.units.size = 3 && (s.unit ⟨2⟩).phase = .parsed && ((passBoth s).2.unit ⟨1⟩).phase = .namesResolved
    && ((passBoth s).2.unit ⟨2⟩).phase = .checked

/-- The two units, if each has no more than a number of tokens. -/
def crossingWithin? (limit : Nat) : Option (CompilationUnit × CompilationUnit) :=
  (readBytes? limit ⟨"first.ceylon", "first.ceylon"⟩ (Text.bytesOf crossing.1)).bind fun r =>
    (readBytes? limit ⟨"second.ceylon", "second.ceylon"⟩ (Text.bytesOf crossing.2)).map fun r' => (r.unit, r'.unit)

theorem crossing_of_crossingWithin? (limit : Nat) {P : CompilationUnit × CompilationUnit → Bool}
    (h : (crossingWithin? limit).any P = true) : P crossingUnits = true := by
  obtain ⟨units, hunits, hP⟩ := (Option.any_eq_true _ _).mp h
  obtain ⟨r, hr, hunits⟩ := Option.bind_eq_some_iff.mp hunits
  obtain ⟨r', hr', rfl⟩ := Option.map_eq_some_iff.mp hunits
  have hfirst : crossingUnits.1 = r.unit := congrArg (·.unit) (readUnit_eq_of_readBytes? hr)
  have hsecond : crossingUnits.2 = r'.unit := congrArg (·.unit) (readUnit_eq_of_readBytes? hr')
  rw [show crossingUnits = (r.unit, r'.unit) from Prod.ext hfirst hsecond]
  exact hP

/-- Before any tree is loaded there is the language module, and it is well formed and complete.  Some programs are
analyzed in the same computation, because they begin with the analysis of the language module. -/
structure Beginning : Prop where
  inventory : State.initial.inventory = startingInventory
  stocked : State.initial.isStocked = true
  standard : State.initial.isStandard = true
  boxed : isBoxed (boxMaker.analyze []).2 = true
  lost : isLost (lostName.analyze []).2 = true
  crossed : isCrossed (joinUnits crossingUnits.1 crossingUnits.2 .initial).2 = true
  passed : isPassed (addBoth crossingUnits.1 crossingUnits.2 .initial).2 = true
  clean : ∀ text ∈ growing, isClean ((loneUnit text).analyze []).2 = true

theorem beginning_holds : Beginning := by
  have h : (State.initial.inventory = startingInventory && State.initial.isStocked && State.initial.isStandard
      && (boxMaker.analyzedFrom? 100 [] State.initial).any isBoxed
      && (lostName.analyzedFrom? 100 [] State.initial).any isLost
      && ((crossingWithin? 100).any fun units => isCrossed (joinUnits units.1 units.2 State.initial).2
        && isPassed (addBoth units.1 units.2 State.initial).2)
      && growing.all fun text => ((loneUnit text).analyzedFrom? 100 [] State.initial).any isClean) = true := by
    -- One evaluation settles everything, so that the language module is read only once.
    apply initial_of_readWithin ?hlines 500 (fun s => s.inventory = startingInventory && s.isStocked && s.isStandard
      && (boxMaker.analyzedFrom? 100 [] s).any isBoxed && (lostName.analyzedFrom? 100 [] s).any isLost
      && ((crossingWithin? 100).any fun units => isCrossed (joinUnits units.1 units.2 s).2
        && isPassed (addBoth units.1 units.2 s).2)
      && growing.all fun text => ((loneUnit text).analyzedFrom? 100 [] s).any isClean) ?h
    case hlines =>
      unfold languageLines
      repeat constructor
    case h => decide +kernel
  simp only [Bool.and_eq_true, decide_eq_true_eq, List.all_eq_true, and_assoc] at h
  obtain ⟨hinventory, hstocked, hstandard, hboxed, hlost, hcrossing, hclean⟩ := h
  have hcrossing := crossing_of_crossingWithin? 100 hcrossing
  rw [Bool.and_eq_true] at hcrossing
  exact ⟨hinventory, hstocked, hstandard, boxMaker.analyze_of_analyzedFrom? 100 [] isBoxed hboxed,
    lostName.analyze_of_analyzedFrom? 100 [] isLost hlost, hcrossing.1, hcrossing.2,
    fun text htext => (loneUnit text).analyze_of_analyzedFrom? 100 [] isClean (hclean text htext)⟩

theorem initial_inventory : State.initial.inventory = startingInventory :=
  beginning_holds.inventory

namespace State

theorem initial_isStocked : State.initial.isStocked = true :=
  beginning_holds.stocked

theorem initial_isStandard : State.initial.isStandard = true :=
  beginning_holds.standard

end State

end Analysis

end Ceylon
