import Ceylon.Lint.Suppression
import Ceylon.Proofs.Lexemes
import Ceylon.Proofs.Trimming
import Ceylon.Syntax.Parser.CompilationUnit

/-!
# What comments suppress

A comment is a directive if it holds `nolint`, alone or with a list of names behind a colon.  A directive covers the
checks that it names, and all of them if it names none.

Of the directives that start on one line only the last one is in force, and the findings that are left are those
that no directive in force covers (`unsuppressed_eq_filter`).  So a directive that covers a finding does not remove
it if another one stands behind it on the line (`unsuppressed_behind_directive`); where the directives of a line agree
about a check, each of them counts.
-/

namespace Ceylon.Lint

open Text
open Token (Buffer Cursor Lexed Lexeme)

/-! ## Comments -/

/-- The text of a comment, and what stands between its marks. -/
inductive Comment : (text body : List Char) → Prop
  | line (body : List Char) : Comment ('/' :: '/' :: body) body
  | block (body : List Char) : Comment ('/' :: '*' :: (body ++ ['*', '/'])) body

/-- A block comment that is closed ends with its second mark. -/
theorem blockComment_of_closed {gs : List Glyph} (h : (Lexeme.blockComment gs).2 = true) :
    ∃ body, (Lexeme.blockComment gs).1 = body ++ ['*', '/'] := by
  fun_induction Lexeme.blockComment gs with
  | case1 => exact ⟨[], rfl⟩
  | case2 c rest _ cs closed heq ih =>
    rw [heq] at ih
    obtain ⟨body, hbody⟩ := ih h
    exact ⟨c :: body, congrArg (c :: ·) hbody⟩
  | case3 => cases h

/-- What the lexer reads as a comment has the marks of one. -/
theorem comment_of_read {first : Char} {gs : List Glyph}
    (h : (Lexeme.read first gs).kind = .ok .comment) :
    ∃ body, Comment (first :: (Lexeme.read first gs).more) body := by
  revert h
  refine Lexeme.read_cases
    (P := fun l => l.kind = .ok .comment → ∃ body, Comment (first :: l.more) body) first gs
    ?line ?block ?quoted ?digits ?letters ?marks
  case line =>
    rintro rfl rest rfl -
    exact ⟨_, .line (Glyph.takeChars (· != '\n') rest)⟩
  case block =>
    rintro rfl rest - h
    -- A comment that is left open is no token of this kind.
    have hclosed : (Lexeme.blockComment rest).2 = true := by
      by_contra hopen
      simp [hopen] at h
    obtain ⟨body, hbody⟩ := blockComment_of_closed hclosed
    exact ⟨body, by rw [hbody]; exact .block body⟩
  case quoted =>
    intro kind what hquote h
    obtain ⟨rfl, -⟩ := Lexeme.kind_of_literal h
    exact absurd hquote (by simp [Lexeme.quotes])
  case digits => exact fun _ h => absurd (Lexeme.kind_of_number h) (by decide)
  case letters => exact fun _ h => absurd (Lexeme.kind_of_word h) (by decide)
  case marks => exact fun h => absurd (Lexeme.kind_of_punctuation h).1 (by decide)

/-- A comment of a source text. -/
def IsComment (c : Token) : Prop :=
  ∃ body, Comment c.text.toList body

/-- Comment tokens are spelled as comments are. -/
theorem isComment_of_lexed {before : List Char} {gs : List Glyph} {ts : List Token} (h : Lexed before gs ts) :
    ∀ t ∈ ts, t.kind = .comment → IsComment t := by
  induction h with
  | eof => simp
  | stray => simp
  | error => simp
  | piece _ reads _ ih =>
    refine List.forall_mem_cons.mpr ⟨?_, ih⟩
    rintro rfl
    obtain ⟨body, hbody⟩ := comment_of_read (congrArg Lexeme.kind reads.read)
    rw [reads.read] at hbody
    exact ⟨body, by rwa [String.toList_ofList]⟩

/-- The comments of a unit that is read are comments. -/
theorem isComment_of_mem_readUnit (source : Source) (glyphs : List Glyph) :
    ∀ c ∈ (Syntax.readUnit source glyphs).unit.comments, IsComment c := by
  have hbuffer : ∀ c ∈ (Buffer.ofGlyphs source glyphs).comments, IsComment c := by
    intro c hc
    obtain ⟨hc, hkind⟩ := List.mem_filter.mp hc
    exact isComment_of_lexed (Cursor.tokens_lexed _ [] rfl) c hc (of_decide_eq_true hkind)
  change ∀ c ∈ (Syntax.readParts (.ofGlyphs source glyphs)).unit.comments, IsComment c
  unfold Syntax.readParts
  dsimp only
  split
  · exact List.forall_mem_nil _
  · split
    · exact List.forall_mem_nil _
    · split
      · exact List.forall_mem_nil _
      · exact hbuffer

/-- The text of a comment is what stands between its marks, without the blanks around it. -/
theorem toList_commentText {comment : String} {body : List Char} (h : Comment comment.toList body) :
    (commentText comment).toList = trimmed body := by
  have hslash : isSpace '/' = false := by decide
  have hstar : isSpace '*' = false := by decide
  have htrim := toList_trim_eq comment
  rw [commentText]
  generalize comment.toList = cs at h htrim
  cases h with
  | line =>
    rw [trimmed_cons _ hslash, trimRight_cons _ hslash] at htrim
    have hstart : afterStart? "//" (trim comment) = some (String.ofList (trimRight body)) :=
      afterStart?_eq_some_iff.mpr (by simp [htrim])
    rw [hstart, toList_trim_eq, String.toList_ofList, trimmed_trimRight]
  | block =>
    -- A slash stands at both ends, so that trimming the comment changes nothing.
    have hends : trimRight (body ++ ['*', '/']) = body ++ ['*', '/'] := by
      simpa using trimRight_concat (body ++ ['*']) hslash
    rw [trimmed_cons _ hslash, trimRight_cons _ hstar, hends] at htrim
    have hline : afterStart? "//" (trim comment) = none := by
      refine afterStart?_eq_none_iff.mpr fun cs hcs => ?_
      rw [htrim] at hcs
      exact absurd (List.cons.inj (List.cons.inj hcs).2).1 (by decide)
    have hblock : afterStart? "/*" (trim comment) = some (String.ofList (body ++ ['*', '/'])) :=
      afterStart?_eq_some_iff.mpr (by simp [htrim])
    have hend : (String.ofList (body ++ ['*', '/'])).toList = body ++ "*/".toList := String.toList_ofList
    rw [hline, hblock, toList_trim_eq, toList_beforeEnd hend]

/-! ## Directives -/

/-- What a directive begins with. -/
abbrev nolint : List Char :=
  ['n', 'o', 'l', 'i', 'n', 't']

/-- A comment that is a directive without a list. -/
def Bare (body : List Char) : Prop :=
  ∃ before after, Blank before ∧ Blank after ∧ body = before ++ nolint ++ after

/-- A comment that is a directive with a list. -/
def Lists (body list : List Char) : Prop :=
  ∃ before, Blank before ∧ body = before ++ (nolint ++ ':' :: list)

/-- One of the items of a list is the name of a check. -/
def Names (list : List Char) (check : String) : Prop :=
  ∃ item ∈ list.splitOn ',', trimmed item = check.toList

/-- A comment that is a directive without a list, or with a list of a certain form. -/
def Directs (form : List Char → Prop) (c : Token) : Prop :=
  ∃ body, Comment c.text.toList body ∧ (Bare body ∨ ∃ list, Lists body list ∧ form list)

/-- A comment that is a directive. -/
def IsDirective (c : Token) : Prop :=
  Directs (fun _ => True) c

/-- A comment that is a directive for a check: one without a list, with an empty list or with a list that names the
check. -/
def Covers (c : Token) (check : String) : Prop :=
  Directs (fun list => Blank list ∨ Names list check) c

/-- The word that opens a directive has no white space in it. -/
theorem dark_nolint : ∀ c ∈ nolint, isSpace c = false := by
  simp [nolint, isSpace]

/-- Trimming stops at the word. -/
theorem trimmed_nolint_append (cs : List Char) : trimmed (nolint ++ cs) = nolint ++ trimRight cs :=
  trimmed_cons_append dark_nolint cs

/-- A bare directive is the word alone, up to the white space around it. -/
theorem bare_iff {body : List Char} : Bare body ↔ trimmed body = nolint := by
  constructor
  · rintro ⟨before, after, hbefore, hafter, rfl⟩
    rw [trimmed_append _ hbefore hafter]
    exact trimmed_nolint_append []
  · intro h
    obtain ⟨before, after, hbefore, hafter, hbody⟩ := exists_eq_trimmed body
    exact ⟨before, after, hbefore, hafter, h ▸ hbody⟩

/-- What a list of names says depends on it without the blanks around it. -/
theorem exists_lists_iff {body : List Char} {P : List Char → Prop}
    (hP : ∀ {list list'}, trimmed list = trimmed list' → P list → P list') :
    (∃ list, Lists body list ∧ P list) ↔ ∃ rest, trimmed body = nolint ++ ':' :: rest ∧ P rest := by
  constructor
  · rintro ⟨list, ⟨before, hbefore, rfl⟩, hlist⟩
    have hblanks := trimmed_append (nolint ++ ':' :: list) hbefore .nil
    rw [List.append_nil] at hblanks
    refine ⟨trimRight list, ?_, hP (trimmed_trimRight list).symm hlist⟩
    rw [hblanks, trimmed_nolint_append, trimRight_cons _ (by decide)]
  · rintro ⟨rest, hrest, hlist⟩
    obtain ⟨before, after, hbefore, hafter, hbody⟩ := exists_eq_trimmed body
    rw [hrest, List.append_assoc, List.append_assoc] at hbody
    exact ⟨rest ++ after, ⟨before, hbefore, hbody⟩, hP (trimmed_append rest .nil hafter).symm hlist⟩

/-- A name is listed exactly when it is one of the pieces between commas, trimmed. -/
theorem names_iff {list : List Char} {check : String} :
    Names list check ↔ check.toList ∈ ((trimmed list).splitOn ',').map trimmed := by
  rw [map_trimmed_splitOn (by decide), List.mem_map, Names]

/-- The directive with a list. -/
def listed (list : String) : Suppression :=
  match trim list with
  | "" => .all
  | list => .named ((list.toList.splitOn ',').map fun item => trim (String.ofList item))

/-- A list covers a check when it is blank or names it. -/
theorem listed_covers_iff {list check : String} :
    (listed list).covers check = true ↔ Blank list.toList ∨ Names list.toList check := by
  rw [listed]
  split
  · next hnil =>
    have hblank : Blank list.toList := by rw [← trimmed_eq_nil_iff, ← toList_trim_eq, hnil]; rfl
    exact iff_of_true rfl (.inl hblank)
  · next hne =>
    have hblank : ¬ Blank list.toList := by
      rw [← trimmed_eq_nil_iff, ← toList_trim_eq, String.toList_eq_nil_iff]
      exact hne
    rw [or_iff_right hblank, names_iff, Suppression.covers, List.contains_iff_mem, ← toList_trim_eq]
    simp only [List.mem_map, ← String.toList_inj, toList_trim_eq, String.toList_ofList]

/-- Without the word there is no directive. -/
theorem suppression?_of_none {comment : String} (h : afterStart? "nolint" (commentText comment) = none) :
    suppression? comment = none := by
  unfold suppression?
  rw [h]

/-- The word alone suppresses every check. -/
theorem suppression?_of_bare {comment : String} (h : afterStart? "nolint" (commentText comment) = some "") :
    suppression? comment = some .all := by
  unfold suppression?
  rw [h]
  rfl

/-- Behind the word there must be a colon, else the comment is no directive. -/
theorem suppression?_of_ne {comment rest : String} (h : afterStart? "nolint" (commentText comment) = some rest)
    (hne : rest ≠ "") : suppression? comment = (afterStart? ":" rest).map listed := by
  unfold suppression?
  rw [h]
  split
  · next h => cases h
  · next h => exact absurd (Option.some.inj h) hne
  · next h =>
    rw [← Option.some.inj h]
    rfl

/-- What a comment is read as. -/
theorem suppression?_eq_some_iff {comment : String} {body : List Char} (h : Comment comment.toList body)
    {s : Suppression} :
    suppression? comment = some s ↔
      trimmed body = nolint ∧ s = .all ∨
        ∃ list, trimmed body = nolint ++ ':' :: list ∧ s = listed (String.ofList list) := by
  rw [← toList_commentText h]
  cases hafter : afterStart? "nolint" (commentText comment) with
  | none =>
    have hno := afterStart?_eq_none_iff.mp hafter
    rw [suppression?_of_none hafter]
    refine iff_of_false nofun ?_
    rintro (⟨hbare, -⟩ | ⟨list, hlist, -⟩)
    · exact hno [] hbare
    · exact hno _ hlist
  | some rest =>
    rw [afterStart?_eq_some_iff.mp hafter]
    change _ ↔ nolint ++ rest.toList = nolint ∧ _ ∨ ∃ list, nolint ++ rest.toList = _ ∧ _
    simp only [List.append_cancel_left_eq, List.append_right_eq_self, String.toList_eq_nil_iff]
    -- behind the word there is nothing, or there has to be a colon
    by_cases hrest : rest = ""
    · subst hrest
      rw [suppression?_of_bare hafter]
      simp [eq_comm]
    · rw [suppression?_of_ne hafter hrest, Option.map_eq_some_iff, or_iff_right fun h => hrest h.1]
      simp only [afterStart?_eq_some_iff]
      constructor
      · rintro ⟨list, hlist, hs⟩
        exact ⟨list.toList, hlist, by rw [String.ofList_toList, hs]⟩
      · rintro ⟨list, hlist, rfl⟩
        exact ⟨String.ofList list, by simp [hlist], rfl⟩

variable {c : Token} {comments : List Token} {check : String}

/-- The form of a comment decides what it suppresses: a property of one is a property of the other. -/
theorem exists_suppression?_iff (hc : IsComment c) {form : List Char → Prop} {P : Suppression → Prop}
    (hform : ∀ {list list'}, trimmed list = trimmed list' → form list → form list') (hall : P .all)
    (hlisted : ∀ list, P (listed list) ↔ form list.toList) :
    (∃ s, suppression? c.text = some s ∧ P s) ↔ Directs form c := by
  constructor
  · obtain ⟨body, hbody⟩ := hc
    rintro ⟨s, hs, hP⟩
    refine ⟨body, hbody, ?_⟩
    rcases (suppression?_eq_some_iff hbody).mp hs with ⟨hbare, -⟩ | ⟨rest, hrest, heq⟩
    · exact .inl (bare_iff.mpr hbare)
    · have hrest' := (hlisted _).mp (heq ▸ hP)
      rw [String.toList_ofList] at hrest'
      exact .inr ((exists_lists_iff hform).mpr ⟨rest, hrest, hrest'⟩)
  · rintro ⟨body, hbody, hbare | hlists⟩
    · exact ⟨.all, (suppression?_eq_some_iff hbody).mpr (.inl ⟨bare_iff.mp hbare, rfl⟩), hall⟩
    · obtain ⟨rest, hrest, hrest'⟩ := (exists_lists_iff hform).mp hlists
      exact ⟨_, (suppression?_eq_some_iff hbody).mpr (.inr ⟨rest, hrest, rfl⟩),
        (hlisted _).mpr (by rwa [String.toList_ofList])⟩

/-- The comments that are read as directives are the directives. -/
theorem suppression?_isSome_iff (hc : IsComment c) : (suppression? c.text).isSome = true ↔ IsDirective c := by
  rw [Option.isSome_iff_exists, IsDirective,
    ← exists_suppression?_iff hc (P := fun _ => True) (fun _ h => h) trivial fun _ => Iff.rfl]
  simp only [and_true]

/-- A directive suppresses the findings of a check if it covers the check. -/
theorem covers_of_suppression? (hc : IsComment c) {s : Suppression} (hs : suppression? c.text = some s) :
    s.covers check = true ↔ Covers c check := by
  have hform : ∀ {list list' : List Char}, trimmed list = trimmed list' →
      (Blank list ∨ Names list check) → (Blank list' ∨ Names list' check) := by
    intro list list' heq h
    rwa [← trimmed_eq_nil_iff, names_iff, heq, trimmed_eq_nil_iff, ← names_iff] at h
  rw [Covers, ← exists_suppression?_iff hc (P := fun s => s.covers check = true) hform rfl fun _ => listed_covers_iff,
    hs]
  simp

/-! ## Findings -/

/-- The directive in force on a line is the last one that starts there. -/
def InForce (comments : List Token) (line : Int) (c : Token) : Prop :=
  ∃ before after, comments = before ++ c :: after ∧ (c.pos.line : Int) = line ∧ IsDirective c ∧
    ∀ c' ∈ after, (c'.pos.line : Int) = line → ¬ IsDirective c'

/-- The directive in force on the line of a finding covers its check. -/
def Suppressed (comments : List Token) (f : Finding) : Prop :=
  ∃ c, InForce comments f.place.line c ∧ Covers c f.check

/-- What covers a check is a directive. -/
theorem Covers.isDirective (h : Covers c check) : IsDirective c := by
  obtain ⟨body, hbody, hbare | ⟨list, hlist, -⟩⟩ := h
  · exact ⟨body, hbody, .inl hbare⟩
  · exact ⟨body, hbody, .inr ⟨list, hlist, trivial⟩⟩

/-- A directive in force on a line is one of the comments. -/
theorem InForce.mem {line : Int} (h : InForce comments line c) : c ∈ comments := by
  obtain ⟨before, after, rfl, -⟩ := h
  exact List.mem_append_right _ List.mem_cons_self

/-- The last value of a function that is not defined everywhere. -/
theorem getLast?_filterMap_eq_some_iff {α β : Type} {g : α → Option β} {as : List α} {b : β} :
    (as.filterMap g).getLast? = some b ↔
      ∃ before a after, as = before ++ a :: after ∧ g a = some b ∧ ∀ a' ∈ after, g a' = none := by
  rw [List.getLast?_filterMap, List.findSome?_eq_some_iff]
  constructor
  · rintro ⟨after, a, before, has, ha, hafter⟩
    refine ⟨before.reverse, a, after.reverse, ?_, ha, fun a' ha' => hafter a' (List.mem_reverse.mp ha')⟩
    rw [← List.reverse_reverse as, has]
    simp
  · rintro ⟨before, a, after, rfl, ha, hafter⟩
    exact ⟨after.reverse, a, before.reverse, by simp, ha, fun a' ha' => hafter a' (List.mem_reverse.mp ha')⟩

section

variable (hcomments : ∀ c ∈ comments, IsComment c)
include hcomments

/-- What is in force on a line is what the directive in force says. -/
theorem suppressionAt?_eq_some_iff {line : Int} {s : Suppression} :
    suppressionAt? comments line = some s ↔ ∃ c, InForce comments line c ∧ suppression? c.text = some s := by
  rw [suppressionAt?, getLast?_filterMap_eq_some_iff]
  constructor
  · rintro ⟨before, c, after, rfl, hc, hafter⟩
    obtain ⟨hline, hs⟩ := Option.ite_none_right_eq_some.mp hc
    refine ⟨c, ⟨before, after, rfl, hline, ?_, ?_⟩, hs⟩
    · exact (suppression?_isSome_iff (hcomments c (by simp))).mp (by rw [hs]; rfl)
    · intro c' hc' hline' hdirective
      -- A later directive on the line would have been the last one.
      have hnone := hafter c' hc'
      rw [if_pos hline'] at hnone
      have hsome := (suppression?_isSome_iff (hcomments c' (by simp [hc']))).mpr hdirective
      rw [hnone] at hsome
      cases hsome
  · rintro ⟨c, ⟨before, after, rfl, hline, -, hafter⟩, hs⟩
    refine ⟨before, c, after, rfl, by rw [if_pos hline, hs], fun c' hc' => ?_⟩
    split
    · next hline' =>
      rw [← Option.not_isSome_iff_eq_none, suppression?_isSome_iff (hcomments c' (by simp [hc']))]
      exact hafter c' hc' hline'
    · rfl

/-- There is a directive in force where a directive starts. -/
theorem exists_inForce (hc : c ∈ comments) (hdirective : IsDirective c) : ∃ c', InForce comments c.pos.line c' := by
  obtain ⟨s, hs⟩ := Option.isSome_iff_exists.mp ((suppression?_isSome_iff (hcomments c hc)).mpr hdirective)
  have hne : suppressionAt? comments c.pos.line ≠ none := by
    rw [suppressionAt?, Ne, List.getLast?_eq_none_iff]
    exact List.ne_nil_of_mem (List.mem_filterMap.mpr ⟨c, hc, by rw [if_pos rfl, hs]⟩)
  obtain ⟨s', hs'⟩ := Option.ne_none_iff_exists'.mp hne
  obtain ⟨c', hforce, -⟩ := (suppressionAt?_eq_some_iff hcomments).mp hs'
  exact ⟨c', hforce⟩

/-- A finding is left if no directive in force covers it. -/
theorem suppressed_iff {f : Finding} :
    Suppressed comments f ↔ ∃ s, suppressionAt? comments f.place.line = some s ∧ s.covers f.check = true := by
  constructor
  · rintro ⟨c, hforce, hcovers⟩
    obtain ⟨s, hs⟩ := Option.isSome_iff_exists.mp
      ((suppression?_isSome_iff (hcomments c hforce.mem)).mpr hcovers.isDirective)
    exact ⟨s, (suppressionAt?_eq_some_iff hcomments).mpr ⟨c, hforce, hs⟩,
      (covers_of_suppression? (hcomments c hforce.mem) hs).mpr hcovers⟩
  · rintro ⟨s, hs, hcovers⟩
    obtain ⟨c, hforce, hc⟩ := (suppressionAt?_eq_some_iff hcomments).mp hs
    exact ⟨c, hforce, (covers_of_suppression? (hcomments c hforce.mem) hc).mp hcovers⟩

end

/-- The directives on the line of a finding agree about its check: all of them cover it, or none does. -/
def Agree (comments : List Token) (f : Finding) : Prop :=
  ∀ c ∈ comments, ∀ c' ∈ comments, (c.pos.line : Int) = f.place.line → (c'.pos.line : Int) = f.place.line →
    Covers c f.check → IsDirective c' → Covers c' f.check

/-- A directive on the line of a finding covers its check. -/
def Covered (comments : List Token) (f : Finding) : Prop :=
  ∃ c ∈ comments, (c.pos.line : Int) = f.place.line ∧ Covers c f.check

/-- A suppressed finding is covered by a directive on its line. -/
theorem Suppressed.covered {f : Finding} (h : Suppressed comments f) : Covered comments f := by
  obtain ⟨c, hforce, hcovers⟩ := h
  obtain ⟨-, -, -, hline, -⟩ := id hforce
  exact ⟨c, hforce.mem, hline, hcovers⟩

/-- Where the directives on a line agree, a covered finding is suppressed: the last of them speaks for all. -/
theorem Covered.suppressed (hcomments : ∀ c ∈ comments, IsComment c) {f : Finding} (h : Covered comments f)
    (hagree : Agree comments f) : Suppressed comments f := by
  obtain ⟨c, hc, hline, hcovers⟩ := h
  obtain ⟨c', hforce⟩ := exists_inForce hcomments hc hcovers.isDirective
  rw [hline] at hforce
  obtain ⟨-, -, -, hline', hdirective, -⟩ := id hforce
  exact ⟨c', hforce, hagree c hc c' hforce.mem hline hline' hcovers hdirective⟩

open Classical in
/-- The findings that are left are those without a directive in force that covers them, in their order and as often
as before.  What is removed is covered by a directive on its line, and where the directives of a line agree about a
check, what is covered is removed. -/
theorem unsuppressed_eq_filter (comments : List Token) (hcomments : ∀ c ∈ comments, IsComment c) (fs : List Finding) :
    unsuppressed comments fs = fs.filter (fun f => ¬ Suppressed comments f) ∧
      (∀ f ∈ fs, f ∉ unsuppressed comments fs → Covered comments f) ∧
      ∀ f ∈ fs, Agree comments f → Covered comments f → f ∉ unsuppressed comments fs := by
  have hleft : unsuppressed comments fs = fs.filter (fun f => ¬ Suppressed comments f) := by
    refine List.filter_congr fun f _ => ?_
    rw [Bool.eq_iff_iff, decide_eq_true_iff, suppressed_iff hcomments]
    cases suppressionAt? comments f.place.line <;> simp
  have hmem (f : Finding) (hf : f ∈ fs) : f ∉ unsuppressed comments fs ↔ Suppressed comments f := by
    rw [hleft, List.mem_filter, and_iff_right hf, decide_eq_true_iff, not_not]
  exact ⟨hleft, fun f hf h => ((hmem f hf).mp h).covered,
    fun f hf hagree h => (hmem f hf).mpr (h.suppressed hcomments hagree)⟩

/-- Two directives on one line: one for all checks, and one for another check. -/
def twoDirectives : List Token :=
  [⟨.comment, "/* nolint */", ⟨0, 1, 1⟩⟩, ⟨.comment, "/* nolint:missing-return */", ⟨13, 1, 14⟩⟩]

theorem isComment_twoDirectives : ∀ c ∈ twoDirectives, IsComment c :=
  List.forall_mem_cons.mpr ⟨⟨_, .block " nolint ".toList⟩,
    List.forall_mem_singleton.mpr ⟨_, .block " nolint:missing-return ".toList⟩⟩

/-- The finding of a statement on the line of the directives that is never executed. -/
def unreachableBehind : Finding :=
  ⟨⟨"a.ceylon", 1, 30⟩, "unreachable code", "unreachable-code", some .warning, []⟩

open Classical in
theorem unsuppressed_eq_filter_twoDirectives :
    (∀ c ∈ twoDirectives, IsComment c) ∧ unsuppressed twoDirectives [unreachableBehind] =
      [unreachableBehind].filter (fun f => ¬ Suppressed twoDirectives f) :=
  ⟨isComment_twoDirectives, (unsuppressed_eq_filter _ isComment_twoDirectives _).1⟩

/-- A finding is left although a directive on its line covers it: another one stands behind that. -/
theorem unsuppressed_behind_directive :
    Covered twoDirectives unreachableBehind ∧
      unsuppressed twoDirectives [unreachableBehind] = [unreachableBehind] := by
  have hblank : Blank [' '] := List.forall_mem_singleton.mpr (by decide)
  refine ⟨⟨_, List.mem_cons_self, rfl, _, .block " nolint ".toList, .inl ⟨[' '], [' '], hblank, hblank, rfl⟩⟩, ?_⟩
  decide

end Ceylon.Lint
