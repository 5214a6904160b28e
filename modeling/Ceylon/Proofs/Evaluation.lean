import Ceylon.Analysis.Language
import Ceylon.Proofs.Decoding
import Ceylon.Proofs.Lexing

/-!
# Evaluating fixed texts

What the analysis makes of a fixed text can be computed, if the text is read in steps that a kernel can
take: from its bytes (`Glyph.ofString_eq_decode`), by a lexer that counts the tokens it reads
(`Cursor.tokens_eq_of_tokensWithin`).  So the state before any tree is loaded can be known
(`initial_of_readWithin`).
-/

namespace Ceylon

namespace Text

/-- The bytes of a text. -/
def bytesOf (s : String) : List UInt8 :=
  s.toByteArray.data.toList

theorem bytesOf_eq (s : String) : bytesOf s = encode s.toList := by
  rw [bytesOf, ← String.utf8Encode_toList]
  simp [List.utf8Encode, encode]

theorem eq_of_bytesOf_eq {s t : String} (h : bytesOf s = bytesOf t) : s = t :=
  String.toByteArray_inj.mp (ByteArray.ext (Array.ext' h))

namespace Glyph

/-- A text is read from its bytes. -/
theorem ofString_eq_decode {s : String} (h : ∀ g ∈ decode (bytesOf s), ∃ c, g = .char c) :
    ofString s = decode (bytesOf s) := by
  obtain ⟨cs, hcs⟩ : ∃ cs : List Char, decode (bytesOf s) = cs.map .char := by
    generalize decode (bytesOf s) = gs at h
    induction gs with
    | nil => exact ⟨[], rfl⟩
    | cons g gs ih =>
      obtain ⟨c, rfl⟩ := h g (List.mem_cons_self ..)
      obtain ⟨cs, rfl⟩ := ih fun g hg => h g (List.mem_cons_of_mem _ hg)
      exact ⟨c :: cs, rfl⟩
  have hs : String.ofList cs = s := by
    apply eq_of_bytesOf_eq
    rw [bytesOf_eq, String.toList_ofList, encode_of_decode hcs]
  rw [hcs, ← hs, ofString, String.toList_ofList]

end Glyph

end Text

namespace Token.Cursor

/-- The tokens from the cursor on, if there are no more than the given number. -/
def tokensWithin : Nat → Cursor → Option (List Token)
  | 0, _ => none
  | n + 1, c =>
    let next := c.readToken
    if next.1.kind = .eof ∨ next.1.kind = .error then some [next.1]
    else (tokensWithin n next.2).map (next.1 :: ·)

theorem tokens_eq_of_tokensWithin {n : Nat} {c : Cursor} {ts : List Token}
    (h : c.tokensWithin n = some ts) : c.tokens 0 = ts := by
  induction n generalizing c ts with
  | zero => cases h
  | succ n ih =>
    rw [tokensWithin] at h
    split at h
    · next hlast =>
      obtain rfl := Option.some.inj h
      exact hlast.elim tokens_of_eof tokens_of_error
    · next hmore =>
      obtain ⟨rest, hrest, rfl⟩ := Option.map_eq_some_iff.mp h
      rw [tokens_of_ne (fun h => hmore (.inl h)) (fun h => hmore (.inr h)), ih hrest]

end Token.Cursor

namespace Text.Glyph

/-- Whether a glyph is a character. -/
def isChar : Glyph → Bool
  | .char _ => true
  | .stray _ => false

theorem exists_char_of_isChar {g : Glyph} (h : g.isChar = true) : ∃ c, g = .char c := by
  cases g with
  | char c => exact ⟨c, rfl⟩
  | stray b => cases h

end Text.Glyph

namespace Syntax

open Token Text

/-- A source file of no more than a number of tokens. -/
def readWithin (limit : Nat) (source : Source) (glyphs : List Glyph) : Option Reading :=
  (Cursor.tokensWithin limit { source, rest := glyphs }).map fun tokens =>
    readBuffer (.ofTokens source tokens)

theorem readUnit_eq_of_readWithin {limit : Nat} {source : Source} {glyphs : List Glyph} {reading : Reading}
    (h : readWithin limit source glyphs = some reading) : readUnit source glyphs = reading := by
  obtain ⟨tokens, htokens, rfl⟩ := Option.map_eq_some_iff.mp h
  rw [readUnit, Buffer.ofGlyphs, Cursor.tokens_eq_of_tokensWithin htokens]

/-- A source file of no more than a number of tokens, read from its bytes. -/
def readBytes? (limit : Nat) (source : Source) (bytes : List UInt8) : Option Reading :=
  if (Glyph.decode bytes).all Glyph.isChar then readWithin limit source (Glyph.decode bytes) else none

theorem readUnit_eq_of_readBytes? {limit : Nat} {source : Source} {text : String} {reading : Reading}
    (h : readBytes? limit source (bytesOf text) = some reading) :
    readUnit source (Glyph.ofString text) = reading := by
  rw [readBytes?] at h
  split at h
  · next hchars =>
    rw [Glyph.ofString_eq_decode fun g hg => Glyph.exists_char_of_isChar (List.all_eq_true.mp hchars g hg)]
    exact readUnit_eq_of_readWithin h
  · cases h

end Syntax

namespace Analysis

open Model Text

/-- The glyphs of lines, with the end of each line. -/
def glyphsOfLines (lines : List (List Char)) : List Glyph :=
  lines.flatMap fun cs => cs.map Glyph.char ++ [Glyph.char '\n']

theorem ofString_join {ls : List String} {lines : List (List Char)}
    (h : List.Forall₂ (fun l cs => l = String.ofList cs) ls lines) :
    Glyph.ofString (String.join (ls.map (· ++ "\n"))) = glyphsOfLines lines := by
  induction h with
  | nil => simp [Glyph.ofString, glyphsOfLines]
  | cons hline _ ih =>
    subst hline
    simp only [Glyph.ofString, glyphsOfLines, String.toList_join, List.flatMap_cons, List.map_cons,
      List.map_append] at ih ⊢
    rw [ih]
    simp

/-- What holds of the initial state can be found out by computing it.  The lines of the language module are given
by their characters, so that they need not be taken from the bytes of the texts. -/
theorem initial_of_readWithin {lines : List (List Char)}
    (hlines : List.Forall₂ (fun l cs => l = String.ofList cs) languageLines lines) (limit : Nat) (P : State → Bool)
    (h : (Syntax.readWithin limit ⟨languageFile, ""⟩ (glyphsOfLines lines)).any
      (fun reading => P (.initialWith reading.unit)) = true) : P State.initial = true := by
  obtain ⟨reading, hreading, hP⟩ := (Option.any_eq_true _ _).mp h
  rw [← ofString_join hlines] at hreading
  rwa [State.initial, languageTree, languageText, Syntax.readUnit_eq_of_readWithin hreading]

end Analysis

end Ceylon
