import Ceylon.Analysis.Binding
import Ceylon.Analysis.Checker.Run
import Ceylon.Analysis.Resolution
import Ceylon.Syntax.Parser.CompilationUnit

/-!
# The language module

The declarations that every program can use, as source text of their own, and the state in which the
analysis of a program begins: the language module has been analyzed, and nothing else has been seen.
-/

namespace Ceylon.Analysis

open Model

/-- The name under which the language module's text appears in locations. -/
def languageFile : String :=
  "ceylon/language/language.ceylon"

/-- The lines of the language module's text. -/
def languageLines : List String := [
  "shared abstract class Void() \x7b\x7d",
  "",
  "shared abstract class Object() extends Void() \x7b",
  "    shared default String string \x7b",
  "        return \"\";",
  "    \x7d",
  "\x7d",
  "",
  "shared abstract class IdentifiableObject() extends Object() satisfies Equality \x7b\x7d",
  "",
  "shared class Nothing() extends Void() \x7b\x7d",
  "",
  "shared Nothing null = Nothing();",
  "",
  "shared interface Equality \x7b\x7d",
  "",
  "shared class Boolean() extends Object() satisfies Equality \x7b\x7d",
  "",
  "shared Boolean true = Boolean();",
  "shared Boolean false = Boolean();",
  "",
  "shared interface Comparable<in Other> satisfies Equality \x7b\x7d",
  "",
  "shared class Comparison() extends Object() satisfies Equality \x7b\x7d",
  "",
  "shared Comparison smaller = Comparison();",
  "shared Comparison equal = Comparison();",
  "shared Comparison larger = Comparison();",
  "",
  "shared interface Ordinal<out Other> \x7b\x7d",
  "",
  "shared interface Numeric<Other> satisfies Equality \x7b\x7d",
  "",
  "shared interface Slots<Other> \x7b\x7d",
  "",
  "shared interface Container \x7b",
  "    shared formal Boolean empty;",
  "\x7d",
  "",
  "shared interface Category \x7b",
  "    shared formal Boolean contains(Object element);",
  "\x7d",
  "",
  "shared interface Iterable<out Element> satisfies Container \x7b\x7d",
  "",
  "shared interface Correspondence<in Key, out Item> \x7b",
  "    shared formal Item? item(Key key);",
  "\x7d",
  "",
  "shared interface Sequence<out Element>",
  "        satisfies Iterable<Element>, Correspondence<Integer, Element>, Category \x7b",
  "    shared formal Element first;",
  "    shared formal Integer size;",
  "\x7d",
  "",
  "shared class Entry<out Key, out Item>(Key k, Item i) extends Object() satisfies Equality \x7b",
  "    shared Key key = k;",
  "    shared Item item = i;",
  "\x7d",
  "",
  "shared class Range<Element>(Element from, Element to) extends Object()",
  "        satisfies Sequence<Element> \x7b\x7d",
  "",
  "shared class String() extends Object() satisfies Comparable<String>, Sequence<Character> \x7b\x7d",
  "",
  "shared class Integer() extends Object()",
  "        satisfies Numeric<Integer>, Comparable<Integer>, Ordinal<Integer>, Slots<Integer> \x7b\x7d",
  "",
  "shared class Float() extends Object() satisfies Numeric<Float>, Comparable<Float> \x7b\x7d",
  "",
  "shared class Character() extends Object() satisfies Comparable<Character>, Ordinal<Character> \x7b\x7d",
  "",
  "shared class Quoted() extends Object() satisfies Equality \x7b\x7d",
  "",
  "shared void print(Object line) \x7b\x7d"]

/-- The text of the language module. -/
def languageText : String :=
  String.join (languageLines.map (· ++ "\n"))

/-- The syntax tree of the language module. -/
def languageTree : Syntax.CompilationUnit :=
  (Syntax.readUnit ⟨languageFile, ""⟩ (Text.Glyph.ofString languageText)).unit

/-- Analyzes a language module.  The bottom type, which no text declares, is added to its package. -/
def analyzeLanguage (tree : Syntax.CompilationUnit) : Analyze Unit := do
  let package ← packageNamed languagePath
  modifyGraph (·.addPackage languageModule package)
  let u ← addUnit languageFile tree package
  bindDeclarations u
  modify fun s =>
    let (builtins, graph) := Builtins.load s.graph package
    { s with builtins, graph }
  discard (resolveModule u)
  discard (resolveNames u)
  checkExpressions u
  modifyGraph (·.addDependency defaultModule languageModule)

/-- The modules that are there from the start: the language module and the default module. -/
def startingGraph : Graph :=
  { modules := #[{ name := languagePath }, { name := [], isDefault := true }] }

/-- The state in which the analysis of a program begins, with the given language module. -/
def State.initialWith (language : Syntax.CompilationUnit) : State :=
  ((analyzeLanguage language).run { graph := startingGraph }).2

/-- The state in which the analysis of a program begins. -/
def State.initial : State :=
  .initialWith languageTree

end Ceylon.Analysis
