import Ceylon.Proofs.Analyses
import Ceylon.Proofs.RuleTypes
import Ceylon.Proofs.UnionCases

/-!
# Looking members up

A member of a type is looked for in its declaration and then in the supertypes of that, and the supertype of the
type for the declaration that holds the member is found by another search.  The two agree: whatever the first one
finds stands in a declaration that the type leads up to, so the second one finds that declaration too, whenever it is
answered (`memberOf_coherent`).  For a union, members are looked for in the class that its cases extend.  Each
case leads up to that class, and so to what the class leads up to.

Whether the second search is answered is another question.  A case that leads up to a declaration on two ways has two
instances of it to compare, and this may never end, though the class that the cases extend has but one way up
(`twoWays_not_answered`).
-/

namespace Ceylon.Model

namespace Hierarchy

open Ceylon.Model.Algebra (anySupertype notCoveredBy searchAll)

variable {h : Hierarchy}

/-! ## What the cases of a union lead up to -/

/-- What is known of supertypes that cases have in common. -/
def Common (h : Hierarchy) : (q : Query) → q.Answer → Prop
  | .search t d path, r => path = [] → r.isSome → h.Ascends t.decl d
  | .common cases d, r => ∀ st ∈ r, st.decl = d ∧ ∀ c ∈ cases, h.Ascends c.decl d
  | .superclass cases _ _, r => ∀ st ∈ r, ∀ c ∈ cases, h.Ascends c.decl st.decl
  | _, _ => True

theorem searchAll_common (d : DeclId) (cases : List Applied) :
    (searchAll d cases).Ensures (fun _ => True) h.Common fun r => r.isSome → ∀ c ∈ cases, h.Ascends c.decl d := by
  induction cases with
  | nil => exact fun _ => List.forall_mem_nil _
  | cons c cs ih =>
    refine ⟨.intro, fun found hfound => ?_⟩
    cases found with
    | none => exact nofun
    | some sup =>
      refine ih.bind fun sups hsups hsome => ?_
      exact List.forall_mem_cons.mpr ⟨hfound rfl rfl, hsups (by simpa using hsome)⟩

theorem commonStep_common (cases : List Applied) (d : DeclId) :
    (h.commonStep cases d).Ensures (fun _ => True) h.Common fun r =>
      ∀ st ∈ r, st.decl = d ∧ ∀ c ∈ cases, h.Ascends c.decl d := by
  refine (searchAll_common d cases).bind fun sups hsups => ?_
  match sups with
  | none | some [] => exact nofun
  | some (sup :: sups) =>
    refine (Dialogue.Ensures.trivial _).bind fun args _ st hst => ?_
    obtain ⟨_, -, rfl⟩ := Option.map_eq_some_iff.mp hst
    exact ⟨rfl, hsups rfl⟩

theorem superclassStep_common (cases : List Applied) (t : Applied) (seen : List DeclId) :
    (h.superclassStep cases t seen).Ensures (fun _ => True) h.Common fun r =>
      ∀ st ∈ r, ∀ c ∈ cases, h.Ascends c.decl st.decl := by
  unfold superclassStep
  split
  · exact nofun
  · have hcommon : (h.commonClass cases t.decl).Ensures (fun _ => True) h.Common fun r =>
        ∀ st ∈ r, ∀ c ∈ cases, h.Ascends c.decl st.decl := by
      unfold commonClass
      split
      · refine ⟨.intro, fun r hr st hst => ?_⟩
        obtain ⟨hdecl, hcases⟩ := hr st hst
        exact hdecl ▸ hcases
      · exact nofun
    refine hcommon.bind fun common hcommon => ?_
    -- If the class is common to all cases the search ends here, and otherwise it goes on with what the class
    -- extends.
    cases common with
    | some st => exact hcommon
    | none =>
      cases h.extended t.decl with
      | none => exact nofun
      | some st => exact (Dialogue.Ensures.trivial _).bind fun st' _ => ⟨.intro, fun r hr => hr⟩

theorem answerWithin_common (h : Hierarchy) (depth : Nat) (q : Query) {r : q.Answer}
    (hr : h.answerWithin depth q = some r) : h.Common q r := by
  induction depth generalizing q with
  | zero => cases hr
  | succ depth ih =>
    cases q with
    | search t d path =>
      rintro rfl hsome
      by_contra hno
      rw [(Answers.search_exact ⟨_, hr⟩).1.mpr hno] at hsome
      cases hsome
    | common cases d => exact (commonStep_common cases d).of_run (fun q _ _ hq => ih q hq) hr
    | superclass cases t seen => exact (superclassStep_common cases t seen).of_run (fun q _ _ hq => ih q hq) hr
    | _ => trivial

/-- The class that cases extend is one that each of them leads up to. -/
theorem Answers.superclass_above {cases : List Applied} {seen : List DeclId} {t st : Applied}
    (hst : h.Answers (.superclass cases t seen) (some st)) : ∀ c ∈ cases, h.Ascends c.decl st.decl := by
  obtain ⟨n, hn⟩ := hst
  exact h.answerWithin_common n (.superclass cases t seen) hn st rfl

theorem anySupertype_found {ok : (q : Query) → q.Answer → Prop} (t : Applied) (cases : List Applied) :
    (anySupertype t cases).Ensures (fun _ => True) ok fun b =>
      b = true → ∃ c ∈ cases, ok (.subtype (.applied t) (.applied c)) true := by
  induction cases with
  | nil => exact nofun
  | cons c cs ih =>
    refine ⟨.intro, fun r hr => ?_⟩
    cases r with
    | true => exact fun _ => ⟨c, List.mem_cons_self, hr⟩
    | false => exact ih.mono fun b hb htrue => (hb htrue).imp fun _ => And.imp_left (List.mem_cons_of_mem c)

theorem notCoveredBy_dropped {ok : (q : Query) → q.Answer → Prop} (t : Applied) (cases : List Applied) :
    (notCoveredBy t cases).Ensures (fun _ => True) ok fun kept =>
      ∀ c ∈ cases, c ∈ kept ∨ ok (.subtype (.applied c) (.applied t)) true := by
  induction cases with
  | nil => exact List.forall_mem_nil _
  | cons c cs ih =>
    refine ⟨.intro, fun r hr => ih.bind fun kept hkept => ?_⟩
    cases r with
    | true => exact List.forall_mem_cons.mpr ⟨.inr hr, hkept⟩
    | false =>
      exact List.forall_mem_cons.mpr
        ⟨.inl List.mem_cons_self, fun c' hc' => (hkept c' hc').imp_left (List.mem_cons_of_mem c)⟩

/-- Whatever is added to cases leads up to one of the cases then, and so does whatever was there before. -/
theorem addCase_above {cases : List Applied} (proper : ∀ c ∈ cases, h.isBottom c.decl = false) (t : Applied) :
    h.Yields (h.addCase cases t) fun r => (∀ c ∈ r, h.isBottom c.decl = false) ∧
      ∀ c, c ∈ cases ∨ c = t → h.isBottom c.decl = false → ∃ c' ∈ r, h.Ascends c.decl c'.decl := by
  unfold addCase
  split
  · next hbottom =>
    refine ⟨proper, ?_⟩
    rintro c (hc | rfl) hproper
    · exact ⟨c, hc, .refl⟩
    · exact absurd (hbottom.symm.trans hproper) nofun
  · next hbottom =>
    refine (anySupertype_found t cases).bind fun covered hcovered => ?_
    -- A covered case has one above it in the list already; one that is not covered comes to stand above those
    -- it drops.
    cases covered with
    | true =>
      refine ⟨proper, ?_⟩
      rintro c (hc | rfl) hproper
      · exact ⟨c, hc, .refl⟩
      · obtain ⟨c', hc', hcov⟩ := hcovered rfl
        exact ⟨c', hc', hcov.ascends hproper⟩
    | false =>
      refine ((notCoveredBy_ensures t cases).and (notCoveredBy_dropped t cases)).bind
        fun kept ⟨⟨hsub, _⟩, hdropped⟩ => ⟨fun c hc => ?_, ?_⟩
      · rcases List.mem_append.mp hc with hc | hc
        · exact proper c (hsub.subset hc)
        · obtain rfl := List.mem_singleton.mp hc
          simpa using hbottom
      · have hlast : t ∈ kept ++ [t] := List.mem_append_right kept (List.mem_singleton_self t)
        rintro c (hc | rfl) hproper
        · rcases hdropped c hc with hkept | hcov
          · exact ⟨c, List.mem_append_left _ hkept, .refl⟩
          · exact ⟨t, hlast, hcov.ascends hproper⟩
        · exact ⟨c, hlast, .refl⟩

theorem addCases_above {cases : List Applied} (proper : ∀ c ∈ cases, h.isBottom c.decl = false)
    (ts : List Applied) :
    h.Yields (h.addCases cases ts) fun r => ∀ c, c ∈ cases ∨ c ∈ ts → h.isBottom c.decl = false →
      ∃ c' ∈ r, h.Ascends c.decl c'.decl := by
  induction ts generalizing cases with
  | nil => exact fun c hc _ => ⟨c, hc.resolve_right List.not_mem_nil, .refl⟩
  | cons t ts ih =>
    refine (addCase_above proper t).bind fun cases' ⟨proper', habove⟩ => ?_
    refine (ih proper').mono fun r hr c hc hproper => ?_
    have hsplit : (c ∈ cases ∨ c = t) ∨ c ∈ ts := by simpa [or_assoc] using hc
    rcases hsplit with hc | hc
    · obtain ⟨c', hc', hway⟩ := habove c hc hproper
      obtain ⟨c'', hc'', hway'⟩ := hr c' (.inl hc') (proper' c' hc')
      exact ⟨c'', hc'', hway.trans hway'⟩
    · exact hr c (.inr hc) hproper

/-- A hierarchy in which some supertypes were not known yet. -/
structure Grows (h₀ h : Hierarchy) : Prop where
  supertypes : ∀ d, ∀ st ∈ h₀.supertypes d, st ∈ h.supertypes d
  isBottom : ∀ d, h.isBottom d = h₀.isBottom d

theorem Grows.refl (h : Hierarchy) : h.Grows h :=
  ⟨fun _ _ => id, fun _ => rfl⟩

theorem Grows.ascends {h₀ : Hierarchy} (grows : h₀.Grows h) {d e : DeclId} (hway : h₀.Ascends d e) :
    h.Ascends d e :=
  hway.lift id fun _ _ ⟨st, hst, heq⟩ => ⟨st, grows.supertypes _ st hst, heq⟩

/-- A declared type, or a union that types were united to, perhaps when some supertypes were not known yet. -/
inductive Built (h : Hierarchy) : Ty → Prop
  | applied (a : Applied) : Built h (.applied a)
  | union {h₀ : Hierarchy} {ts : List Ty} {cases : List Applied} {extended : Option Applied} (grows : h₀.Grows h)
    (united : h₀.Answers (.unite ts) (.union cases extended)) : Built h (.union cases extended)

/-- The cases of a union lead up to the class that they extend. -/
theorem Answers.cases_above {ts : List Ty} {cases : List Applied} {a : Applied}
    (hu : h.Answers (.unite ts) (.union cases (some a))) : ∀ c ∈ cases, h.Ascends c.decl a.decl := by
  obtain ⟨cases', -, -, -, hmakes⟩ := uniteStep_reaches (answers_iff_reaches.mp hu)
  cases hmakes with
  | bottom hbottom => cases hbottom
  | union hextended => exact hextended.superclass_above

/-- If cases have been united, then each of them leads up to a case of the union. -/
theorem exists_case_above {cases cases' : List Applied} {extended : Option Applied}
    (proper : ∀ c ∈ cases, h.isBottom c.decl = false)
    (hu : h.Answers (.unite (cases.map .applied)) (.union cases' extended)) :
    ∀ c ∈ cases, ∃ c' ∈ cases', h.Ascends c.decl c'.decl := by
  obtain ⟨gathered, hgathered, -, -, hcases⟩ := hu.of_unite
  have hflat : (cases.map Ty.applied).flatMap Ty.cases = cases := by simp [List.flatMap_map, Ty.cases]
  rw [hflat] at hgathered
  obtain ⟨_, -, rfl, habove⟩ := (hgathered.ensures (addCases_above (List.forall_mem_nil _) cases)).result
  intro c hc
  obtain ⟨c', hc', hway⟩ := habove c (.inr hc) (proper c hc)
  rcases hcases with rfl | ⟨rfl, -⟩
  · exact ⟨c', hc', hway⟩
  · cases hc'

end Hierarchy

/-! ## Where members stand -/

namespace Graph

variable {g : Graph} {name : String} {filter : Filter}

/-- The members of a scope stand there. -/
def MembersInPlace (g : Graph) : Prop :=
  ∀ σ, ∀ d ∈ g.membersOf σ, d.index < g.decls.size ∧ (g.decl d).scope.head? = some σ

/-- The members of a scope and the type parameters of a declaration stand there. -/
structure InPlace (g : Graph) : Prop where
  members : g.MembersInPlace
  typeParams : ∀ d, ∀ p ∈ (g.decl d).shape.typeParams, (g.decl p).scope.head? = some (.decl d)

/-- A member is found in a declaration that is reached through supertypes. -/
theorem findMemberWithin_ascends (depth : Nat) :
    (∀ seen d m, (g.findMemberWithin name filter depth seen d).2 = some m →
      ∃ e, g.hierarchy.Ascends d e ∧ g.directMember? (.decl e) name filter = some m) ∧
    ∀ seen (sts : List Applied) m, (g.findInheritedWithin name filter depth seen sts).2 = some m →
      ∃ st ∈ sts, ∃ e, g.hierarchy.Ascends st.decl e ∧ g.directMember? (.decl e) name filter = some m := by
  -- The two searches call each other, so both are followed at once.
  induction depth with
  | zero => exact ⟨fun _ _ _ hm => by simp [findMemberWithin] at hm,
      fun _ _ _ hm => by simp [findInheritedWithin] at hm⟩
  | succ depth ih =>
    refine ⟨fun seen d m hm => ?_, fun seen sts m hm => ?_⟩
    · rw [findMemberWithin] at hm
      split at hm
      · cases hm
      · split at hm
        · next m' hm' =>
          obtain rfl := Option.some.inj hm
          exact ⟨d, .refl, hm'⟩
        · obtain ⟨st, hst, e, hway, hfound⟩ := ih.2 _ _ m hm
          exact ⟨e, .head ⟨st, hst, rfl⟩ hway, hfound⟩
    · cases sts with
      | nil => simp [findInheritedWithin] at hm
      | cons st sts =>
        rw [findInheritedWithin] at hm
        split at hm
        · next seen' m' hfound =>
          obtain rfl := Option.some.inj hm
          obtain ⟨e, hway, hmember⟩ := ih.1 seen st.decl m' (by rw [hfound])
          exact ⟨st, List.mem_cons_self, e, hway, hmember⟩
        · obtain ⟨st', hst', hrest⟩ := ih.2 _ sts m hm
          exact ⟨st', List.mem_cons_of_mem st hst', hrest⟩

/-- The container of a member that is found in a type declaration is one that this leads up to. -/
theorem InPlace.container_above (hg : g.InPlace) {d m container : DeclId}
    (hm : g.findMember? d name filter = some m) (hcontainer : g.containerType? m = some container) :
    g.hierarchy.Ascends d container ∧ filter (g.decl m) = true ∧ (g.decl container).shape.isType := by
  obtain ⟨e, hway, hmember⟩ := (findMemberWithin_ascends g.searchDepth).1 [] d m hm
  obtain ⟨hmem, hfilter⟩ := Analysis.mem_of_directMember? hmember
  have hhead := (hg.members (.decl e) m hmem).2
  unfold containerType? at hcontainer
  split at hcontainer
  · next c outer hscope =>
    rw [hscope] at hhead
    obtain rfl : c = e := by simpa using hhead
    split at hcontainer
    · next htype =>
      obtain rfl := Option.some.inj hcontainer
      exact ⟨hway, hfilter, htype⟩
    · cases hcontainer
  · cases hcontainer

/-- The graph with the given declarations. -/
def ofList (ds : List Declaration) : Graph :=
  ds.foldl (fun g d => (g.declare d).2) {}

theorem MembersInPlace.declare (hg : g.MembersInPlace) (d : Declaration) : (g.declare d).2.MembersInPlace := by
  intro σ e he
  have hsize : (g.declare d).2.decls.size = g.decls.size + 1 := Array.size_push d
  rcases mem_membersOf_declare he with he | ⟨rfl, hhead⟩
  · obtain ⟨hlt, hscope⟩ := hg σ e he
    rw [g.decl_declare_of_lt d hlt]
    exact ⟨by omega, hscope⟩
  · rw [g.decl_declare_self d, hsize]
    exact ⟨Nat.lt_succ_self _, hhead⟩

theorem inPlace_ofList {ds : List Declaration}
    (typeParams : ∀ i < ds.length, ∀ p ∈ ((ofList ds).decl ⟨i⟩).shape.typeParams,
      ((ofList ds).decl p).scope.head? = some (.decl ⟨i⟩)) : (ofList ds).InPlace := by
  -- Declaring puts a declaration behind those there are, and lists it with its own scope.
  have members : ∀ g : Graph, g.MembersInPlace → (ds.foldl (fun g d => (g.declare d).2) g).MembersInPlace := by
    clear typeParams
    induction ds with
    | nil => exact fun _ hg => hg
    | cons d ds ih => exact fun g hg => ih _ (hg.declare d)
  have size : ∀ g : Graph, (ds.foldl (fun g d => (g.declare d).2) g).decls.size = g.decls.size + ds.length := by
    clear typeParams members
    induction ds with
    | nil => exact fun _ => rfl
    | cons d ds ih =>
      intro g
      have hsize : (g.declare d).2.decls.size = g.decls.size + 1 := Array.size_push d
      rw [List.foldl_cons, ih, hsize, List.length_cons]
      omega
  refine ⟨members {} fun σ d hd => ?_, fun d p hp => ?_⟩
  · simp [membersOf] at hd
  · by_cases hlt : d.index < ds.length
    · exact typeParams d.index hlt p hp
    · rw [decl, Array.getD_eq_getD_getElem?, Array.getElem?_eq_none (by rw [ofList, size]; simpa using hlt)] at hp
      cases hp

end Graph

end Ceylon.Model

namespace Ceylon.Analysis

open Model Hierarchy

/-- The declarations of an analysis stand in their places. -/
theorem State.Reached.inPlace {s : State} (hs : s.Reached) : s.graph.InPlace := by
  have grounded := hs.inOrder.layout.grounded
  refine ⟨grounded.members, fun d p hp => ?_⟩
  have hd : d.index < s.graph.decls.size := by
    by_contra hinvalid
    rw [Graph.decl, Array.getD_eq_getD_getElem?, Array.getElem?_eq_none (by omega)] at hp
    cases hp
  rw [(grounded.typeParams d hd p hp).scope]
  rfl

variable {f : State} {t : Ty}

/-- The receiver of a type is one that all of its cases lead up to. -/
theorem receiver?_above (ht : f.graph.hierarchy.Built t) {recv : Applied} (hrecv : f.receiver? t = some recv) :
    ∀ c ∈ t.cases, f.graph.hierarchy.Ascends c.decl recv.decl := by
  cases ht with
  | applied a =>
    obtain rfl := Option.some.inj hrecv
    intro c hc
    rw [List.mem_singleton.mp hc]
    exact .refl
  | @union h₀ ts cases extended grows united =>
    have stale : extended = some recv → ∀ c ∈ cases, f.graph.hierarchy.Ascends c.decl recv.decl := by
      rintro rfl c hc
      exact grows.ascends (united.cases_above c hc)
    dsimp only [State.receiver?] at hrecv
    split at hrecv
    · next cases' extended' hunited =>
      subst hrecv
      rcases unite_eq_or f.graph.hierarchy (cases.map .applied) with hu | hfallback
      · rw [hunited] at hu
        obtain ⟨-, normal, -⟩ := united.union_cases
        intro c hc
        have proper : ∀ c ∈ cases, f.graph.hierarchy.isBottom c.decl = false :=
          fun c hc => (grows.isBottom c.decl).trans (normal.proper c hc)
        obtain ⟨c', hc', hway⟩ := exists_case_above proper hu c hc
        exact hway.trans (hu.cases_above c' hc')
      · -- If uniting is not answered, then its first case stands in for the union.
        rw [hunited] at hfallback
        cases cases with
        | nil => cases hfallback
        | cons c cs => cases hfallback
    · exact stale hrecv

/-- A search for what a type leads up to finds it, if it is answered. -/
theorem search_found {h : Hierarchy} {c : Applied} {e : DeclId} (hway : h.Ascends c.decl e) {found : Option Applied}
    (hfound : h.Answers (.search c e []) found) : ∃ a, found = some a ∧ a.decl = e := by
  obtain ⟨hnone, hdecl⟩ := hfound.search_exact
  cases found with
  | none => exact absurd hway (hnone.mp rfl)
  | some a => exact ⟨a, rfl, hdecl a rfl⟩

/-- A member that is found for a type comes with a supertype for its container, if that search is answered; and
every case of the type has a supertype for the container wherever that search is answered, which it always is if the
supertypes are flat. -/
theorem memberOf_coherent (hg : f.graph.InPlace) (ht : f.graph.hierarchy.Built t) (name : String) (filter : Filter)
    (m container : DeclId) (sup : Option Applied) (hm : f.memberOf? t name filter = some (m, sup))
    (hcontainer : f.graph.containerType? m = some container) :
    let h := f.graph.hierarchy
    (∃ recv, f.receiver? t = some recv ∧ ∀ found, h.answer? (.search recv container []) = some found →
      sup = found ∧ ∃ a, found = some a ∧ a.decl = container) ∧
    (∀ c ∈ t.cases, ∀ found, h.Answers (.search c container []) found →
      ∃ a, found = some a ∧ a.decl = container) ∧
    (h.FlatSupertypes → ∀ c ∈ t.cases, ∃ a, h.Answers (.search c container []) (some a) ∧ a.decl = container) := by
  intro h
  obtain ⟨recv, hrecv, hmember⟩ := Option.bind_eq_some_iff.mp hm
  obtain ⟨m', hm', hsup⟩ := Option.bind_eq_some_iff.mp hmember
  split at hsup
  · next hnone =>
    obtain ⟨rfl, rfl⟩ : m' = m ∧ none = sup := by simpa using hsup
    rw [hnone] at hcontainer
    cases hcontainer
  · next container' hsome =>
    obtain ⟨rfl, rfl⟩ : m' = m ∧ h.supertype? (.applied recv) container' = sup := by simpa using hsup
    obtain rfl : container' = container := Option.some.inj (hsome.symm.trans hcontainer)
    obtain ⟨hway, -, -⟩ := hg.container_above hm' hcontainer
    -- the receiver stands above every case and the container above the receiver
    have above : ∀ c ∈ t.cases, h.Ascends c.decl container' := fun c hc => (receiver?_above ht hrecv c hc).trans hway
    refine ⟨⟨recv, hrecv, fun found hfound => ?_⟩, fun c hc found => search_found (above c hc), fun flat c hc => ?_⟩
    · exact ⟨supertype?_eq le_rfl hfound, search_found hway ⟨_, hfound⟩⟩
    · obtain ⟨found, hfound, -⟩ := search_answers (I := fun _ => True) (d := container') flat f.graph.hierarchy_finite
        (fun _ _ _ _ _ => trivial)
        (fun found best _ _ _ _ => subtype_finishes flat f.graph.hierarchy_finite _ _) [] (t := c) trivial
      obtain ⟨a, rfl, ha⟩ := search_found (above c hc) hfound
      exact ⟨a, hfound, ha⟩

/-- `interface N<in Z>`, `interface S<T> { Integer foo; }`, `class E() satisfies S<N<C>|C>`,
`class A() extends E() satisfies S<N<C>|C>`, `class B() extends E()` and `class C() satisfies N<N<C>>`. -/
def twoWays : State :=
  let package : ScopeChain := [.package ⟨0⟩]
  let declaration (name : String) (scope : ScopeChain) (shape : Shape) : Declaration :=
    { name, scope, unit := none, node := none, shared := true, shape }
  let c : Applied := ⟨⟨8⟩, []⟩
  let nc : Applied := ⟨⟨0⟩, [.applied c]⟩
  let s : Applied := ⟨⟨2⟩, [.union [nc, c] none]⟩
  let e : Applied := ⟨⟨5⟩, []⟩
  { graph := .ofList [
      declaration "N" package (.ofInterface { params := [⟨1⟩] }),
      declaration "Z" (.decl ⟨0⟩ :: package) (.typeParameter .contravariant {}),
      declaration "S" package (.ofInterface { params := [⟨3⟩] }),
      declaration "T" (.decl ⟨2⟩ :: package) (.typeParameter .invariant {}),
      declaration "foo" (.decl ⟨2⟩ :: package) (.value .unknown false),
      declaration "E" package (.ofClass { satisfied := [s] } none false false),
      declaration "A" package (.ofClass { extended := some e, satisfied := [s] } none false false),
      declaration "B" package (.ofClass { extended := some e } none false false),
      declaration "C" package (.ofClass { satisfied := [⟨⟨0⟩, [.applied nc]⟩] } none false false)] }

theorem twoWays_inPlace : twoWays.graph.InPlace :=
  Graph.inPlace_ofList (by decide)

/-- The union `A|B` of the two classes, with the class that both extend. -/
def twoWaysUnion : Ty :=
  .union [⟨⟨6⟩, []⟩, ⟨⟨7⟩, []⟩] (some ⟨⟨5⟩, []⟩)

theorem twoWays_memberOf? :
    twoWays.graph.hierarchy.Answers (.unite [.applied ⟨⟨6⟩, []⟩, .applied ⟨⟨7⟩, []⟩]) twoWaysUnion ∧
      twoWays.graph.containerType? ⟨4⟩ = some ⟨2⟩ ∧
      twoWays.memberOf? twoWaysUnion "foo" .values =
        some (⟨4⟩, some ⟨⟨2⟩, [.union [⟨⟨0⟩, [.applied ⟨⟨8⟩, []⟩]⟩, ⟨⟨8⟩, []⟩] none]⟩) := by
  have united : twoWays.graph.hierarchy.AnswersWithin 8 (.unite [.applied ⟨⟨6⟩, []⟩, .applied ⟨⟨7⟩, []⟩])
      twoWaysUnion := rfl
  have hrecv : twoWays.receiver? twoWaysUnion = some ⟨⟨5⟩, []⟩ := by
    simp only [State.receiver?, twoWaysUnion, List.map_cons, List.map_nil]
    rw [unite_eq (by decide) united]
    rfl
  have hfound : twoWays.graph.findMember? ⟨5⟩ "foo" .values = some ⟨4⟩ := by decide
  have hcontainer : twoWays.graph.containerType? ⟨4⟩ = some ⟨2⟩ := by decide
  refine ⟨⟨8, united⟩, hcontainer, ?_⟩
  rw [State.memberOf?, hrecv]
  simp only [Option.bind_eq_bind, Option.bind_some, hfound, hcontainer]
  rw [supertype?_eq (n := 8) (by decide) rfl]

/-- The member `foo` of `A|B` comes with the supertype for its container, which is also found for the case `B`. -/
theorem memberOf_coherent_twoWays :
    let h := twoWays.graph.hierarchy
    let s : Applied := ⟨⟨2⟩, [.union [⟨⟨0⟩, [.applied ⟨⟨8⟩, []⟩]⟩, ⟨⟨8⟩, []⟩] none]⟩
    h.Built twoWaysUnion ∧ twoWays.memberOf? twoWaysUnion "foo" .values = some (⟨4⟩, some s) ∧
      h.Answers (.search ⟨⟨7⟩, []⟩ ⟨2⟩ []) (some s) ∧ s.decl = ⟨2⟩ := by
  intro h s
  obtain ⟨hunited, hcontainer, hmember⟩ := twoWays_memberOf?
  have built : h.Built twoWaysUnion := .union (.refl h) hunited
  have found : h.Answers (.search ⟨⟨7⟩, []⟩ ⟨2⟩ []) (some s) := ⟨8, rfl⟩
  obtain ⟨-, hcases, -⟩ := memberOf_coherent twoWays_inPlace built "foo" .values ⟨4⟩ ⟨2⟩ (some s) hmember hcontainer
  obtain ⟨a, ha, hdecl⟩ := hcases ⟨⟨7⟩, []⟩ (List.mem_cons_of_mem _ List.mem_cons_self) (some s) found
  obtain rfl := Option.some.inj ha
  exact ⟨built, hmember, found, hdecl⟩

/-- The member `foo` of `A|B` comes with the supertype for its container, but whether there is one for the case `A` is
never answered.  `A` leads up to `S` on two ways, so that `S<N<C>|C>` is compared with itself, and whether `C` is an
`N<C>` asks itself. -/
theorem twoWays_not_answered :
    let h := twoWays.graph.hierarchy
    let c : Applied := ⟨⟨8⟩, []⟩
    let nc : Applied := ⟨⟨0⟩, [.applied c]⟩
    let s : Applied := ⟨⟨2⟩, [.union [nc, c] none]⟩
    h.Built twoWaysUnion ∧ twoWays.graph.containerType? ⟨4⟩ = some ⟨2⟩ ∧
      twoWays.memberOf? twoWaysUnion "foo" .values = some (⟨4⟩, some s) ∧
      ¬ h.Finishes (.search ⟨⟨6⟩, []⟩ ⟨2⟩ []) := by
  intro h c nc s
  obtain ⟨hunited, hcontainer, hmember⟩ := twoWays_memberOf?
  refine ⟨.union (.refl h) hunited, hcontainer, hmember, fun hfinishes => ?_⟩
  have hinstances : h.Finishes (.subtype (.applied s) (.applied s)) :=
    hfinishes.of_asks (.inr ⟨some s, ⟨8, rfl⟩, .inr ⟨some s, ⟨8, rfl⟩, .inl rfl⟩⟩)
  have hunion : h.Finishes (.subtype (.union [nc, c] none) (.union [nc, c] none)) :=
    hinstances.of_asks (.inr ⟨some s, ⟨8, rfl⟩, .inl rfl⟩)
  have hcase : h.Finishes (.subtype (.applied c) (.union [nc, c] none)) :=
    hunion.of_asks (.inr ⟨true, ⟨8, rfl⟩, .inl rfl⟩)
  have hself : h.Finishes (.subtype (.applied c) (.applied nc)) := hcase.of_asks (.inl rfl)
  exact not_finishes_of_nesting rfl rfl rfl ⟨8, rfl⟩ hself

end Ceylon.Analysis
