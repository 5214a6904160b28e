import Ceylon.Proofs.Resolving
import Ceylon.Proofs.Sight

/-!
# What resolving nodes finds

Resolving a unit keeps to a contract whose terms change as it comes further (`resolveContract`): the types that
it records are built from what is in sight where they are recorded, and if a problem need not be reported, they
are known in all their parts.  Once a node has been visited, it has been dealt with (`Naming.Settles`): a type
reference has its type, and a declaration the type that it is declared with.
-/

namespace Ceylon.Analysis

open Model Syntax

/-! ## The contract -/

/-- How far resolving names has come. -/
structure Naming where
  /-- The references that have types. -/
  referred : NodeId → Prop
  /-- The nodes whose declarations have been given their declared types. -/
  declared : NodeId → Prop

namespace Naming

/-- More has been named. -/
structure Le (w w' : Naming) : Prop where
  referred : ∀ k, w.referred k → w'.referred k
  declared : ∀ k, w.declared k → w'.declared k

/-- Nothing more has been named. -/
theorem Le.refl (w : Naming) : w.Le w :=
  ⟨fun _ => id, fun _ => id⟩

/-- More has been named in two steps. -/
theorem Le.trans {w w' w'' : Naming} (h : w.Le w') (h' : w'.Le w'') : w.Le w'' :=
  ⟨fun k => h'.referred k ∘ h.referred k, fun k => h'.declared k ∘ h.declared k⟩

/-- What resolving has to find out about a node has been found out. -/
def Settles (u : UnitId) (w : Naming) : Node → Prop
  | .type t => w.referred ⟨u, t.mark.id⟩
  | .stmt (.method d) => d.type.isInferred = false → w.declared ⟨u, d.mark.id⟩
  | .stmt (.attribute d) => d.type.isInferred = false → w.declared ⟨u, d.mark.id⟩
  | .stmt (.getter d) => d.type.isInferred = false → w.declared ⟨u, d.mark.id⟩
  | .variable v => v.type.isInferred = false → w.declared ⟨u, v.mark.id⟩
  | .parameter p => w.declared ⟨u, p.mark.id⟩
  | _ => True

/-- What is settled stays so, as more is named. -/
theorem Settles.mono {u : UnitId} {w w' : Naming} {n : Node} (h : w.Settles u n) (hle : w.Le w') :
    w'.Settles u n := by
  cases n with
  | type t => exact hle.referred _ h
  | «variable» v => exact fun hv => hle.declared _ (h hv)
  | parameter p => exact hle.declared _ h
  | stmt s =>
    cases s with
    | method d => exact fun hd => hle.declared _ (h hd)
    | «attribute» d => exact fun hd => hle.declared _ (h hd)
    | getter d => exact fun hd => hle.declared _ (h hd)
    | _ => trivial
  | _ => trivial

end Naming

section

variable (f : State) (ℓ : Leeway) (u : UnitId)

/-- What a step of resolving a unit may be: types are built from what is in sight where they are recorded, or
where the declaration stands that they are for. -/
def ResolveStep.Proper : ResolveStep → Prop
  | .unite m ts => ts ≠ [] ∧ ∀ t ∈ ts, t.Within (f.around ℓ (f.scopeAt u m))
  | .record m t => t.Within (f.around ℓ (f.scopeAt u m))
  | .import i => f.Near [] i.decl
  | .extend m t => ∀ d, f.decls[(⟨u, m.id⟩ : NodeId)]? = some d → t.Within (f.around ℓ (f.graph.decl d).scope)
  | .satisfy m t => ∀ d, f.decls[(⟨u, m.id⟩ : NodeId)]? = some d → t.Within (f.around ℓ (f.graph.decl d).scope)
  | .declare m t => ∀ d, f.decls[(⟨u, m.id⟩ : NodeId)]? = some d → t.Within (f.around ℓ (f.graph.decl d).scope)
  | _ => True

/-- A right answer to a step. -/
def ResolveStep.Right (w : Naming) : (step : ResolveStep) → step.Answer → Prop
  | .recall m, r => ∀ t, r = some t → t.Within (f.around ℓ (f.scopeAt u m)) ∧ w.referred ⟨u, m.id⟩
  | .unite m _, t => t.Within (f.around ℓ (f.scopeAt u m)) ∧ w.referred ⟨u, m.id⟩
  | .record m _, _ => w.referred ⟨u, m.id⟩
  | .declare m _, _ => w.declared ⟨u, m.id⟩
  | .problem .., _ => ℓ.lax
  | _, _ => True

/-- The contract of resolving a unit. -/
def resolveContract : Dialogue.Contract Naming ResolveStep.Answer where
  Leads := Naming.Le
  May _ := ResolveStep.Proper f ℓ u
  Right := ResolveStep.Right f ℓ u
  refl := .refl
  trans := .trans

/-- A part of resolving keeps to the contract, and its result has the property, unless a fatal error ends it. -/
def Resolve.Keeps {α : Type} (w : Naming) (r : Resolve α) (P : Naming → α → Prop) : Prop :=
  r.Upholds (resolveContract f ℓ u) w P

end

namespace Resolution

section

variable {f : State} {ℓ : Leeway} {u : UnitId} {w : Naming} {α β : Type}

/-- Returning a value keeps to what is true of it. -/
theorem pure_keeps {a : α} {P : Naming → α → Prop} (h : P w a) : Resolve.Keeps f ℓ u w (pure a) P :=
  Resolve.Upholds.pure h

/-- A fatal error keeps to everything, since nothing follows it. -/
theorem throw_keeps (e : FatalError) (P : Naming → α → Prop) : Resolve.Keeps f ℓ u w (throw e) P :=
  Resolve.Upholds.throw e P

/-- What is kept to may be weakened. -/
theorem mono_keeps {r : Resolve α} {P P' : Naming → α → Prop} (h : r.Keeps f ℓ u w P)
    (imp : ∀ w', w.Le w' → ∀ a, P w' a → P' w' a) : r.Keeps f ℓ u w P' :=
  Resolve.Upholds.mono h imp

/-- One part of resolving keeps to what the next one goes on with. -/
theorem bind_keeps {r : Resolve α} {g : α → Resolve β} {P : Naming → α → Prop} {P' : Naming → β → Prop}
    (h : r.Keeps f ℓ u w P) (hg : ∀ w', w.Le w' → ∀ a, P w' a → (g a).Keeps f ℓ u w' P') :
    Resolve.Keeps f ℓ u w (r >>= g) P' :=
  Resolve.Upholds.bind h hg

/-- A proper step keeps to what is right for its answer. -/
theorem take_keeps {step : ResolveStep} {P : Naming → step.Answer → Prop} (h : step.Proper f ℓ u)
    (hP : ∀ w', w.Le w' → ∀ r, step.Right f ℓ u w' r → P w' r) : (take step).Keeps f ℓ u w P :=
  Resolve.Upholds.take h hP

/-- A report excuses what is missing. -/
theorem report_keeps (n : Node) (message : String) :
    (report n message).Keeps f ℓ u w fun _ _ => ℓ.lax :=
  take_keeps trivial fun _ _ _ => id

/-- Throwing away a result keeps to there having been one. -/
theorem discard_keeps {r : Resolve α} {P : Naming → α → Prop} (h : r.Keeps f ℓ u w P) :
    Resolve.Keeps f ℓ u w (Functor.discard r) fun w' _ => ∃ a, P w' a :=
  Resolve.Upholds.discard h

/-- What each of the elements leads to holds of all of them at the end. -/
theorem forM_keeps {g : α → Resolve Unit} {P : Naming → α → Prop} (hmono : ∀ w w' a, w.Le w' → P w a → P w' a)
    {as : List α} (h : ∀ a ∈ as, ∀ w, (g a).Keeps f ℓ u w fun w' _ => P w' a) :
    Resolve.Keeps f ℓ u w (as.forM g) fun w' _ => ∀ a ∈ as, P w' a :=
  Resolve.Upholds.forM hmono h

/-- Going through a list keeps to what each turn does. -/
theorem foldlM_keeps {g : β → α → Resolve β} {P : β → Prop} {as : List α}
    (h : ∀ a ∈ as, ∀ w b, P b → (g b a).Keeps f ℓ u w fun _ => P) {b : β} (hb : P b) :
    Resolve.Keeps f ℓ u w (as.foldlM g b) fun _ => P :=
  Resolve.Upholds.foldlM h hb

end

end Resolution

/-! ## Where nodes stand -/

/-- A node of a bound unit stands in a chain of scopes. -/
structure State.At (f : State) (u : UnitId) (c : ScopeChain) (n : Node) : Prop where
  has : f.HasNode u n
  stands : f.Stands u c n

namespace State

variable {f : State} {u : UnitId} {c : ScopeChain} {n p : Node}

/-- A node is found in the scopes that it stands in. -/
theorem At.scopeAt (h : f.At u c n) : f.scopeAt u n.mark = c := by
  rw [State.scopeAt, Std.ExtTreeMap.getD_eq_getD_getElem?, h.stands]
  rfl

variable (hf : f.Layout)
include hf

/-- A node of the unit stands in some scopes, and is laid out there. -/
theorem Layout.at_of_has (hn : f.HasNode u n) : ∃ c, f.At u c n ∧ f.graph.Chain c ∧ f.Laid u c n := by
  obtain ⟨c, hstands, hchain, hlaid⟩ := hf.placed u n hn
  exact ⟨c, ⟨hn, hstands⟩, hchain.chain, hlaid⟩

/-- The scopes of a node form a chain, and it is laid out there. -/
theorem At.chain_laid (h : f.At u c n) : f.graph.Chain c ∧ f.Laid u c n := by
  obtain ⟨c', h', hchain, hlaid⟩ := hf.at_of_has h.has
  obtain rfl : c = c' := Option.some.inj (h.stands.symm.trans h'.stands)
  exact ⟨hchain, hlaid⟩

/-- A part beside a node stands in the same scopes. -/
theorem At.beside (h : f.At u c n) (hp : p ∈ n.beside) (hpart : p ∈ n.parts) : f.At u c p :=
  ⟨h.has.part hpart, (h.chain_laid hf).2.beside p hp⟩

/-- The parts of a type stand where it does. -/
theorem At.part (h : f.At u c n) (hplain : n.isPlain = true) (hp : p ∈ n.parts) : f.At u c p :=
  h.beside hf (Node.beside_of_isPlain hplain ▸ hp) hp

/-- A node that declares something has its declaration, whose scope is around what stands within. -/
theorem At.declares (h : f.At u c n) (hdecl : n.declKind.isSome = true) :
    ∃ d, f.Declares u c n d ∧ ∀ p ∈ n.within, f.At u (.decl d :: c) p := by
  obtain ⟨d, hdeclares, hwithin⟩ := (h.chain_laid hf).2.declared hdecl
  exact ⟨d, hdeclares, fun p hp => ⟨h.has.part (Node.mem_parts_of_within hdecl hp), hwithin p hp⟩⟩

/-- The declaration of a node stands where the node does. -/
theorem At.scope_of_listed (h : f.At u c n) (hdecl : n.declKind.isSome = true) {d : DeclId}
    (hd : f.decls[(⟨u, n.mark.id⟩ : NodeId)]? = some d) : (f.graph.decl d).scope = c := by
  obtain ⟨d', hdeclares, -⟩ := h.declares hf hdecl
  obtain rfl : d' = d := Option.some.inj (hdeclares.listed.symm.trans hd)
  exact hdeclares.scope

/-- A part outside a body stands in the outer scopes. -/
theorem At.outside (h : f.At u c n) (hp : p ∈ n.outside) (hpart : p ∈ n.parts) : f.At u c.tail p :=
  ⟨h.has.part hpart, (h.chain_laid hf).2.outside p hp⟩

end State

/-! ## References -/

/-- Imports of declarations that stand in no body. -/
abbrev State.Importable (f : State) (imports : List Imported) : Prop :=
  ∀ i ∈ imports, f.Near [] i.decl

namespace Resolution

/-- As many arguments are fitted as are asked for. -/
theorem length_fitArgs (count : Nat) (ts : List Ty) : (fitArgs count ts).length = count := by
  rw [fitArgs, List.length_append, List.length_take, List.length_replicate]
  omega

/-- Arguments that are fitted to the number of parameters are in sight; missing ones must be tolerated. -/
theorem fitArgs_within {z : Horizon} {count : Nat} {ts : List Ty} (hts : ∀ t ∈ ts, t.Within z)
    (h : ts.length = count ∨ z.lax) : ∀ t ∈ fitArgs count ts, t.Within z := by
  intro t ht
  rcases List.mem_append.mp ht with ht | ht
  · exact hts t (List.mem_of_mem_take ht)
  · obtain ⟨hmissing, rfl⟩ := List.mem_replicate.mp ht
    exact .unknown (h.resolve_left fun h => hmissing (by omega))

/-- What a state knows and a unit imports, for resolving names of the unit. -/
structure Context.Serves (c : Context) (f : State) (ℓ : Leeway) (u : UnitId) : Prop where
  facts : c.facts = f.bound
  unit : c.unit = u
  imports : f.Importable c.imports
  layout : f.Layout
  builtins : f.builtins.Suits (f.around ℓ [])
  fallback : (default : Applied).Within (f.around ℓ [])

section

variable {c : Context} {f : State} {ℓ : Leeway} {u : UnitId} (hc : c.Serves f ℓ u)
include hc

/-- The declarations that a context knows are those that have been bound. -/
theorem Context.Serves.decl (d : DeclId) : c.facts.graph.decl d = (f.graph.decl d).bound := by
  rw [hc.facts]
  simp only [State.bound, Graph.bound, Graph.decl, Array.getD_eq_getD_getElem?, Array.getElem?_map]
  cases f.graph.decls[d.index]? <;> rfl

/-- A context knows how many arguments a declaration takes. -/
theorem Context.Serves.arity (d : DeclId) : c.arity d = (f.graph.decl d).shape.typeParams.length := by
  rw [Context.arity, hc.decl]
  exact congrArg List.length (Shape.typeParams_bound _)

/-- A declaration without parameters is in sight everywhere. -/
theorem Context.Serves.plain {d : DeclId} (hd : d ∈ f.builtins.simple) (σ : ScopeChain) :
    (Builtins.plain d).Within (f.around ℓ σ) :=
  (hc.builtins.plain hd).mono (f.around_le ℓ fun _ hb => absurd hb List.not_mem_nil)

/-- What a context finds by name is near the node. -/
theorem Context.Serves.typeNamed {σ : ScopeChain} {n : Node} (hn : f.At u σ n) {name : String} {d : DeclId}
    (hd : c.typeNamed? n.mark name = some d) : f.Near σ d := by
  rw [Context.typeNamed?, hc.unit, hc.facts] at hd
  have hscope : f.bound.scopes.getD ⟨u, n.mark.id⟩ [] = σ := hn.scopeAt
  rw [hscope] at hd
  exact State.near_of_lookupWith? (t := f.bound) hc.layout (hn.chain_laid hc.layout).1 hc.imports rfl hd

end

section

variable {c : Context} {f : State} {ℓ : Leeway} {u : UnitId} {σ : ScopeChain}

/-- The type of a reference where it stands. -/
abbrev Found (f : State) (ℓ : Leeway) (u : UnitId) (σ : ScopeChain) (m : Mark) (w : Naming) (t : Ty) : Prop :=
  t.Within (f.around ℓ σ) ∧ w.referred ⟨u, m.id⟩

mutual

/-- Resolving a type finds one in sight, and records it. -/
theorem resolveType_keeps (hc : c.Serves f ℓ u) : (t : TypeRef) → {w : Naming} → f.At u σ (.type t) →
    (resolveType c t).Keeps f ℓ u w (Found f ℓ u σ t.mark)
  | .base b, w, ht => by
    refine bind_keeps (resolveBase_keeps hc b ht) fun w' _ a ha => pure_keeps ⟨.applied ha.1, ha.2⟩
  | .union mark first more, w, ht => by
    have hscope : f.scopeAt u mark = σ := ht.scopeAt
    refine bind_keeps (take_keeps trivial fun _ _ _ => id) fun w₁ _ known hknown => ?_
    -- A type that has been recorded for the reference is in sight from its own scopes, which are these.
    cases known with
    | some t => exact pure_keeps (hscope ▸ hknown t rfl)
    | none =>
      have hfirst : f.At u σ (.type first) := ht.part hc.layout rfl (by simp [Node.parts_union])
      have hmore : ∀ t ∈ more, f.At u σ (.type t) := fun t hmem =>
        ht.part hc.layout rfl (by simpa [Node.parts_union] using .inr hmem)
      refine bind_keeps (resolveType_keeps hc first hfirst) fun w₂ _ t ht => ?_
      refine bind_keeps (resolveTypes_keeps hc more hmore) fun w₃ _ ts hts => ?_
      refine take_keeps ⟨List.cons_ne_nil t ts, ?_⟩ fun _ _ _ => ?_
      · exact hscope ▸ List.forall_mem_cons.mpr ⟨ht.1, hts⟩
      · exact hscope ▸ id
  | .optional mark inner, w, ht => by
    have hscope : f.scopeAt u mark = σ := ht.scopeAt
    refine bind_keeps (take_keeps trivial fun _ _ _ => id) fun w₁ _ known hknown => ?_
    cases known with
    | some t => exact pure_keeps (hscope ▸ hknown t rfl)
    | none =>
      have hinner : f.At u σ (.type inner) := ht.part hc.layout rfl (by simp [Node.parts_optional])
      refine bind_keeps (resolveType_keeps hc inner hinner) fun w₂ _ t ht => ?_
      have hnothing : (Builtins.plain c.facts.builtins.nothing).Within (f.around ℓ σ) := by
        rw [hc.facts]
        exact hc.plain (by simp [Builtins.simple, State.bound]) σ
      refine take_keeps ⟨List.cons_ne_nil _ _, ?_⟩ fun _ _ _ => ?_
      · exact hscope ▸ List.forall_mem_cons.mpr ⟨hnothing, List.forall_mem_singleton.mpr ht.1⟩
      · exact hscope ▸ id

/-- Resolving a name with its arguments finds a type in sight, and records it. -/
theorem resolveBase_keeps (hc : c.Serves f ℓ u) : (b : BaseType) → {w : Naming} → f.At u σ (.type (.base b)) →
    (resolveBase c b).Keeps f ℓ u w fun w' a => a.Within (f.around ℓ σ) ∧ w'.referred ⟨u, b.mark.id⟩
  | { mark, name, args }, w, hb => by
    have hscope : f.scopeAt u mark = σ := hb.scopeAt
    have hargs : ∀ t ∈ args, f.At u σ (.type t) := fun t hmem =>
      hb.part hc.layout rfl (by simpa [Node.parts_base] using hmem)
    refine bind_keeps (take_keeps trivial fun _ _ _ => id) fun w₁ _ known hknown => ?_
    -- A type that has been recorded here is an applied one; the fallback stands for what cannot be.
    cases known with
    | some t =>
      obtain ⟨hwithin, hreferred⟩ := hknown t rfl
      refine pure_keeps ⟨?_, hreferred⟩
      rw [hscope] at hwithin
      cases hcases : t.cases with
      | nil => exact hc.fallback.mono (f.around_le ℓ fun _ hb => absurd hb List.not_mem_nil)
      | cons a as => exact hwithin.cases a (hcases ▸ List.mem_cons_self)
    | none =>
      dsimp only
      split
      · exact throw_keeps _ _
      · next d hd =>
        have hnear : f.Near σ d := hc.typeNamed hb hd
        -- Fitted to the parameters, the arguments make a type in sight.
        have hrecord : ∀ {w : Naming} {ts : List Ty}, (∀ t ∈ ts, t.Within (f.around ℓ σ)) →
            (ts.length = c.arity d ∨ ℓ.lax) → Resolve.Keeps f ℓ u w (do
              let t : Applied := ⟨d, fitArgs (c.arity d) ts⟩
              take (.record mark (.applied t))
              return t) fun w' a => a.Within (f.around ℓ σ) ∧ w'.referred ⟨u, mark.id⟩ := by
          intro w ts hts hlength
          have hwithin : (Applied.mk d (fitArgs (c.arity d) ts)).Within (f.around ℓ σ) :=
            .mk (hnear.around ℓ) ((length_fitArgs _ _).trans (hc.arity d)) (fitArgs_within hts hlength)
          refine bind_keeps (P := fun w' _ => w'.referred ⟨u, mark.id⟩) (take_keeps ?_ fun _ _ _ => id)
            fun _ _ _ hreferred => pure_keeps ⟨hwithin, hreferred⟩
          rw [ResolveStep.Proper, hscope]
          exact .applied hwithin
        refine bind_keeps (P := fun _ _ => True) (take_keeps trivial fun _ _ _ _ => trivial) fun w₂ _ _ _ => ?_
        refine bind_keeps (resolveTypes_keeps hc args hargs) fun w₃ _ ts hts => ?_
        split
        · exact bind_keeps (report_keeps _ _) fun _ _ _ hlax => hrecord hts (.inr hlax)
        · next hlength => exact hrecord hts (.inl (not_not.mp hlength))

/-- Resolving types one after another finds types in sight. -/
theorem resolveTypes_keeps (hc : c.Serves f ℓ u) : (ts : List TypeRef) → {w : Naming} → (∀ t ∈ ts, f.At u σ (.type t)) →
    (resolveTypes c ts).Keeps f ℓ u w fun _ tys => ∀ t ∈ tys, t.Within (f.around ℓ σ)
  | [], w, _ => pure_keeps (List.forall_mem_nil _)
  | t :: ts, w, hts => by
    refine bind_keeps (resolveType_keeps hc t (hts t List.mem_cons_self)) fun w' _ ty hty => ?_
    refine bind_keeps (resolveTypes_keeps hc ts fun t' ht' => hts t' (List.mem_cons_of_mem t ht'))
      fun w'' _ tys htys => pure_keeps ?_
    exact List.forall_mem_cons.mpr ⟨hty.1, htys⟩

end

/-! ## Declarations -/

/-- Resolving the type of a declaration finds one in sight, unless it is to be inferred. -/
theorem resolveDeclared_keeps (hc : c.Serves f ℓ u) {w : Naming} (t : DeclaredType) (ht : f.At u σ t.node) :
    (resolveDeclared c t).Keeps f ℓ u w fun _ known =>
      (∀ ty, known = some ty → ty.Within (f.around ℓ σ)) ∧ (known = none → t.isInferred = true) := by
  cases t with
  | ref t =>
    refine bind_keeps (resolveType_keeps hc t ht) fun _ _ ty hty => pure_keeps ⟨?_, nofun⟩
    rintro _ ⟨rfl⟩
    exact hty.1
  | void mark =>
    have hscope : f.scopeAt u mark = σ := ht.scopeAt
    -- No value has the type of the language for that.
    have hvoid : (Builtins.plain c.facts.builtins.void).Within (f.around ℓ σ) := by
      rw [hc.facts]
      exact hc.plain (by simp [Builtins.simple, State.bound]) σ
    refine bind_keeps (take_keeps trivial fun _ _ _ => id) fun _ _ known hknown => ?_
    cases known with
    | some t =>
      refine pure_keeps ⟨?_, nofun⟩
      rintro _ ⟨rfl⟩
      exact hscope ▸ (hknown t rfl).1
    | none =>
      refine bind_keeps (P := fun _ _ => True) (take_keeps ?_ fun _ _ _ _ => trivial) fun _ _ _ _ =>
        pure_keeps ⟨?_, nofun⟩
      · rw [ResolveStep.Proper, hscope]
        exact hvoid
      · rintro _ ⟨rfl⟩
        exact hvoid
  | inferred mark function => exact pure_keeps ⟨nofun, fun _ => rfl⟩

/-- Giving a declaration the type that is written where the declaration stands, or with fewer bodies around. -/
theorem setDeclared_keeps (hc : c.Serves f ℓ u) {w : Naming} {n : Node} {τ : ScopeChain} (hn : f.At u τ n)
    (hdecl : n.declKind.isSome = true) (t : DeclaredType) (ht : f.At u σ t.node)
    (hsub : ∀ b, .block b ∈ σ → .block b ∈ τ) :
    (setDeclared c n.mark t).Keeps f ℓ u w fun w' _ => t.isInferred = false → w'.declared ⟨u, n.mark.id⟩ := by
  refine bind_keeps (resolveDeclared_keeps hc t ht) fun _ _ known hknown => ?_
  cases known with
  | none => exact pure_keeps fun h => absurd ((hknown.2 rfl).symm.trans h) nofun
  | some ty =>
    refine take_keeps (fun d hd => ?_) fun _ _ _ hdeclared _ => hdeclared
    rw [hn.scope_of_listed hc.layout hdecl hd]
    exact (hknown.1 ty rfl).mono (f.around_le ℓ hsub)

section

variable (hc : c.Serves f ℓ u) {n : Node} {τ : ScopeChain} (hn : f.At u τ n) (hdecl : n.declKind.isSome = true)
include hc hn hdecl

/-- What is in sight where a declaration stands may be recorded for it. -/
theorem proper_of_listed {w : Naming} {step : ResolveStep} {a : Applied} (ha : a.Within (f.around ℓ τ))
    (hstep : step = .extend n.mark a ∨ step = .satisfy n.mark a) :
    (take step).Keeps f ℓ u w fun _ _ => True := by
  have hlisted : ∀ d, f.decls[(⟨u, n.mark.id⟩ : NodeId)]? = some d →
      a.Within (f.around ℓ (f.graph.decl d).scope) := fun d hd =>
    (hn.scope_of_listed hc.layout hdecl hd).symm ▸ ha
  rcases hstep with rfl | rfl <;> exact take_keeps hlisted fun _ _ _ _ => trivial

/-- Satisfied types are in sight of the declaration. -/
theorem satisfyAll_keeps {w : Naming} {d : DeclId} (ts : List TypeRef)
    (hts : ∀ t ∈ ts, f.At u (.decl d :: τ) (.type t)) :
    Resolve.Keeps f ℓ u w (ts.forM (satisfy c n.mark)) fun _ _ => True := by
  refine mono_keeps (forM_keeps (P := fun _ _ => True) (fun _ _ _ _ => id) fun t ht w => ?_)
    fun _ _ _ _ => trivial
  refine bind_keeps (resolveType_keeps hc t (hts t ht)) fun w' _ ty hty => ?_
  have hreport : ∀ message, (report (.type t) message).Keeps f ℓ u w' fun _ _ => True := fun message =>
    mono_keeps (report_keeps _ _) fun _ _ _ _ => trivial
  cases ty with
  | applied st =>
    dsimp only
    split
    · have hwithin := hty.1.of_applied
      rw [State.around_decl_cons] at hwithin
      exact proper_of_listed hc hn hdecl hwithin (.inr rfl)
    · exact hreport _
  | unknown => exact hreport _
  | union cases extended => exact hreport _

end

/-- The supertypes of a class are in sight of it. -/
theorem resolveClass_keeps (hc : c.Serves f ℓ u) {w : Naming} {d : ClassDecl}
    (hd : f.At u σ (.stmt (.classDecl d))) : (resolveClass c d).Keeps f ℓ u w fun _ _ => True := by
  obtain ⟨e, -, hwithin⟩ := hd.declares hc.layout rfl
  have hsatisfied : ∀ w, Resolve.Keeps f ℓ u w (d.satisfied.forM (satisfy c d.mark)) fun _ _ => True := fun w =>
    satisfyAll_keeps hc hd rfl d.satisfied fun t ht => hwithin _ (by simp [Node.within, ht])
  simp only [resolveClass]
  split
  · next x hx =>
    have hclause : f.At u (.decl e :: σ) (.extendedType x) := hwithin _ (by simp [Node.within, hx])
    -- The extended type is within the class, so it may mention its type parameters.
    have htype : f.At u (.decl e :: σ) (.type (.base x.type)) :=
      hclause.part hc.layout rfl (by simp [Node.parts_extendedType])
    refine bind_keeps (resolveBase_keeps hc x.type htype) fun w' _ et het => ?_
    split
    · have hextends := het.1
      rw [State.around_decl_cons] at hextends
      exact bind_keeps (proper_of_listed hc hd rfl hextends (.inl rfl)) fun w'' _ _ _ => hsatisfied w''
    · exact bind_keeps (report_keeps _ _) fun w'' _ _ _ => hsatisfied w''
  · split
    · -- Without a clause, a class outside the language module extends one of its classes.
      refine bind_keeps (proper_of_listed hc hd rfl ?_ (.inl rfl)) fun w' _ _ _ => hsatisfied w'
      rw [hc.facts]
      exact (hc.plain (by simp [Builtins.simple, State.bound]) σ).of_applied
    · exact hsatisfied w

/-- The supertypes of an interface are in sight of it. -/
theorem resolveInterface_keeps (hc : c.Serves f ℓ u) {w : Naming} {d : InterfaceDecl}
    (hd : f.At u σ (.stmt (.interfaceDecl d))) : (resolveInterface c d).Keeps f ℓ u w fun _ _ => True := by
  obtain ⟨e, -, hwithin⟩ := hd.declares hc.layout rfl
  refine bind_keeps (proper_of_listed hc hd rfl ?_ (.inl rfl)) fun w' _ _ _ => ?_
  · rw [hc.facts]
    exact (hc.plain (by simp [Builtins.simple, State.bound]) σ).of_applied
  · exact satisfyAll_keeps hc hd rfl d.satisfied fun t ht => hwithin _ (by simp [Node.within, ht])

/-! ## Units -/

/-- Visiting a node deals with it. -/
theorem visit_keeps (hc : c.Serves f ℓ u) {w : Naming} {n : Node} (hn : f.HasNode u n) :
    (visit c n).Keeps f ℓ u w fun w' _ => w'.Settles u n := by
  obtain ⟨σ, hat, -, -⟩ := hc.layout.at_of_has hn
  cases n with
  | type t =>
    exact mono_keeps (discard_keeps (resolveType_keeps hc t hat)) fun _ _ _ ⟨_, _, hreferred⟩ => hreferred
  | voidType mark =>
    exact mono_keeps (discard_keeps (resolveDeclared_keeps hc (.void mark) hat)) fun _ _ _ _ => trivial
  | typeParameter p =>
    refine mono_keeps (proper_of_listed hc hat rfl ?_ (.inl rfl)) fun _ _ _ _ => trivial
    rw [hc.facts]
    exact (hc.plain (by simp [Builtins.simple, State.bound]) σ).of_applied
  | «variable» v =>
    -- The type of a variable is resolved outside the body that the variable stands in.
    have htype : f.At u σ.tail v.type.node :=
      hat.outside hc.layout (by simp [Node.outside]) (by simp [Node.parts_variable])
    exact setDeclared_keeps hc hat rfl v.type htype fun b hb => List.mem_of_mem_tail hb
  | parameter p =>
    -- The type of a parameter is resolved in its own scope; a sequenced one stands for a sequence of it.
    obtain ⟨d, -, hwithin⟩ := hat.declares hc.layout rfl
    refine bind_keeps (resolveType_keeps hc p.type (hwithin _ (by simp [Node.within]))) fun _ _ t ht => ?_
    refine take_keeps (fun e he => ?_) fun _ _ _ => id
    have hbuiltins : c.facts.builtins = f.builtins := hc.facts ▸ rfl
    have htype := ht.1
    rw [State.around_decl_cons] at htype
    rw [hat.scope_of_listed hc.layout rfl he, hbuiltins]
    split
    · exact (hc.builtins.mono (f.around_le ℓ fun _ hb => absurd hb List.not_mem_nil)).sequenceOf htype
    · exact htype
  | stmt s =>
    cases s with
    | classDecl d => exact mono_keeps (resolveClass_keeps hc hat) fun _ _ _ _ => trivial
    | interfaceDecl d => exact mono_keeps (resolveInterface_keeps hc hat) fun _ _ _ _ => trivial
    | method d =>
      obtain ⟨e, -, hwithin⟩ := hat.declares hc.layout rfl
      refine setDeclared_keeps hc hat rfl d.type (hwithin _ (by simp [Node.within])) fun b hb => ?_
      simpa using hb
    | «attribute» d =>
      exact setDeclared_keeps hc hat rfl d.type
        (hat.beside hc.layout (by simp [Node.beside]) (by simp [Node.parts_attribute])) fun _ => id
    | getter d =>
      exact setDeclared_keeps hc hat rfl d.type
        (hat.beside hc.layout (by simp [Node.beside]) (by simp [Node.parts_getter])) fun _ => id
    | _ => exact pure_keeps trivial
  | _ => exact pure_keeps trivial

end

section

variable {f : State} {ℓ : Leeway} {u : UnitId} {w : Naming} (hf : f.Layout)
include hf

/-- What is imported is a member of a package. -/
theorem resolveElement_keeps (p : PackageId) {imports : List Imported} (himports : f.Importable imports)
    (e : ImportElement) :
    (resolveElement f.bound u p imports e).Keeps f ℓ u w fun _ imports => f.Importable imports := by
  have hreport : ∀ {w : Naming} n message, (report n message).Keeps f ℓ u w fun _ _ => True := fun _ _ =>
    mono_keeps (report_keeps _ _) fun _ _ _ _ => trivial
  simp only [resolveElement]
  split
  · exact bind_keeps (hreport _ _) fun _ _ _ _ => pure_keeps himports
  · next d hd =>
    have hnear : f.Near [] d := State.near_of_package hf (mem_of_directMember? hd).1
    -- What is imported is a member of a package, and so near everything.
    have himport : ∀ {w : Naming} (i : Imported), i.decl = d → Resolve.Keeps f ℓ u w (do
        take (.import i)
        take (.target e.mark d)
        return imports ++ [i]) fun _ imports => f.Importable imports := by
      rintro w i rfl
      refine bind_keeps (P := fun _ _ => True) (take_keeps hnear fun _ _ _ _ => trivial) fun _ _ _ _ =>
        bind_keeps (P := fun _ _ => True) (take_keeps trivial fun _ _ _ _ => trivial) fun _ _ _ _ =>
          pure_keeps fun j hj => ?_
      rcases List.mem_append.mp hj with hj | hj
      · exact himports j hj
      · exact List.mem_singleton.mp hj ▸ hnear
    have hadd : ∀ {w : Naming}, Resolve.Keeps f ℓ u w (if imports.any fun i => i.localName == e.localName then do
          report (.importElement e) ("duplicate import: " ++ e.localName)
          return imports
        else do
          take (.import ⟨e.localName, d, e⟩)
          take (.target e.mark d)
          return imports ++ [⟨e.localName, d, e⟩]) fun _ imports => f.Importable imports := by
      intro w
      split
      · exact bind_keeps (hreport _ _) fun _ _ _ _ => pure_keeps himports
      · exact himport _ rfl
    split
    · exact bind_keeps (hreport _ _) fun _ _ _ _ => hadd
    · exact hadd

/-- Resolving a unit keeps to the contract and deals with all of its nodes. -/
theorem resolveUnit_keeps (hbuiltins : f.builtins.Suits (f.around ℓ []))
    (hfallback : (default : Applied).Within (f.around ℓ [])) (hbound : (f.unit u).isBound = true) :
    (resolveUnit f.bound u (f.unit u).tree).Keeps f ℓ u w fun w' _ => ∀ n, f.HasNode u n → w'.Settles u n := by
  have himports : ((f.unit u).tree.imports.foldlM (resolveImport f.bound u) []).Keeps f ℓ u w
      fun _ imports => f.Importable imports := by
    refine foldlM_keeps (P := f.Importable) (fun i _ w imports h => ?_)
      (List.forall_mem_nil _)
    simp only [resolveImport]
    split
    · exact throw_keeps _ _
    · exact foldlM_keeps (P := f.Importable)
        (fun e _ w imports h => resolveElement_keeps hf _ h e) h
  refine bind_keeps himports fun w' _ imports himports => ?_
  have hserves : Context.Serves ⟨f.bound, u, imports⟩ f ℓ u := ⟨rfl, rfl, himports, hf, hbuiltins, hfallback⟩
  refine mono_keeps (forM_keeps (P := fun w n => w.Settles u n) (fun _ _ _ hle h => h.mono hle) fun n hn w =>
    visit_keeps hserves ⟨hbound, hn⟩) fun _ _ _ hall n hn => hall n hn.2

end

end Resolution

end Ceylon.Analysis
