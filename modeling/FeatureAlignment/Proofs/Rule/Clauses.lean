import Mathlib.Data.List.Forall2
import FeatureAlignment.Proofs.Rule.Variables

/-!
# What the rule of a cell says

The body of a rule says of each source entity that its subject is a member of its type, that each step of
its path leads from one value to the next, which properties its conditions read, and that they hold. Two
properties of an entity whose frames read alike are stated by one frame.

* `Clause`: what one formula of a body says, and of what (`Clause.referents`).
* `Clause.States`: how a formula says it. Its variables are then those of the referents
  (`Clause.States.variableNames`).
* `Draft.Writes`: what writing adds to the body of a draft.
* `Cell.speaks_ruleFrom`: the body of a rule states the clauses of its cell, all of them and nothing else.
-/

namespace FeatureAlignment

/-! ## Clauses -/

/-- **What a formula of a body says**: that a subject is a member of a type, that a step leads on from
where names have led, that a condition reads a property of a subject, or that a condition on it holds. -/
inductive Clause
  | member (number : Nat) (type : QName)
  | step (number : Nat) (walked : List QName) (name : QName)
  | property (number : Nat) (name : String)
  | condition (number : Nat) (c : Condition)

/-- A symbol for a name: a prefix and the local part, or for a name without namespace an underscore and
the name. -/
def QName.Spells (name : QName) (symbol : String) : Prop :=
  if name.isQualified then ∃ p, symbol = p ++ ":" ++ name.localName
  else symbol = "_" ++ variableName name.localName

namespace Clause

open Referent (reached)

/-- **Of what a clause speaks**, at every occurrence of a variable. -/
def referents : Clause → List Referent
  | .member number _ => [.subject number]
  | .step number walked name => [reached number walked, .value number (walked ++ [name])]
  | .property number name => [.subject number, .property number name]
  | .condition number c => c.occurrences.map (Referent.property number)

/-- **How a formula states a clause.** -/
inductive States : Clause → Formula → Prop
  | member {number : Nat} {type : QName} {symbol : String} : type.Spells symbol →
      States (.member number type) (.member (Referent.subject number).term (.symbol symbol))
  | step {number : Nat} {walked : List QName} {name : QName} {symbol : String} : name.Spells symbol →
      States (.step number walked name)
        (.frame (reached number walked).term (.symbol symbol) (Referent.value number (walked ++ [name])).term)
  | property {number : Nat} {name symbol : String} : QName.Spells ⟨name⟩ symbol →
      States (.property number name)
        (.frame (Referent.subject number).term (.symbol symbol) (Referent.property number name).term)
  | condition {number : Nat} {c : Condition} : States (.condition number c) (.ofCondition c)

/-- **The variables of a formula are those of what it speaks of.** -/
theorem States.variableNames {k : Clause} {f : Formula} (h : k.States f) :
    f.variableNames = k.referents.map Referent.name := by
  cases h with
  | member _ => rfl
  | step _ => rfl
  | property _ => rfl
  | condition =>
    rw [Formula.variableNames_ofCondition, referents, List.map_map]
    rfl

/-- The clauses of a condition on a subject, if there is one: the properties that it reads come first. -/
def ofCondition? (number : Nat) : Option Condition → List Clause
  | some c => c.properties.map (.property number) ++ [.condition number c]
  | none => []

/-- The clauses of steps, from where names have led. -/
def ofSteps (number : Nat) (walked : List QName) : List PathStep → List Clause
  | [] => []
  | s :: steps => .step number walked s.name :: (ofCondition? number s.condition ++
      ofSteps number (walked ++ [s.name]) steps)

/-- The clauses of source entities, numbered from a number on. -/
def ofSources (number : Nat) : List Entity → List Clause
  | [] => []
  | e :: es => .member number e.type :: (ofSteps number [] e.path ++ ofCondition? number e.condition) ++
      ofSources (number + 1) es

end Clause

/-- The values of source entities, numbered from a number on. -/
def Referent.ofSources (number : Nat) : List Entity → List Referent
  | [] => []
  | e :: es => reached number e.names :: ofSources (number + 1) es

namespace Cell

/-- **The clauses of a cell.** -/
def clauses (c : Cell) : List Clause := Clause.ofSources 0 c.source

/-- **Of what the head speaks**: the target, and for a property also the values of the sources. -/
def headReferents (c : Cell) : List Referent :=
  match c.target with
  | [] => []
  | e :: _ => if e.isType then [.target] else .target :: Referent.ofSources 0 c.source

/-- **Of what the rule of a cell speaks**, at every occurrence of a variable. -/
def referents (c : Cell) : List Referent := c.clauses.flatMap Clause.referents ++ c.headReferents

/-- **How a formula is the head of the rule.** -/
inductive Heads (c : Cell) : Formula → Prop
  | none : c.target = [] → Heads c (.all [])
  | member {e : Entity} {rest : List Entity} {symbol : String} : c.target = e :: rest → e.isType = true →
      e.type.Spells symbol → Heads c (.member Referent.target.term (.symbol symbol))
  | slot {e : Entity} {rest : List Entity} {symbols : List String} : c.target = e :: rest →
      e.isType = false → List.Forall₂ QName.Spells e.names symbols →
      Heads c (.frame Referent.target.term (.symbol (Text.join "/" symbols))
        (.call ("func:" ++ c.function) ((Referent.ofSources 0 c.source).map Referent.term ++
          c.parameters.literals.map Literal.toTerm)))

end Cell

/-- **A rule speaks for a cell**: its body states the clauses of the cell, and nothing else, and it has
the head of the cell. Each variable is that of what the clause or the head speaks of there. -/
structure Rule.Speaks (c : Cell) (rule : Rule) : Prop where
  body : ∃ parts, rule.body = .all parts ∧
    (∀ f ∈ parts, ∃ k ∈ c.clauses, k.States f ∧ f.variableNames = k.referents.map Referent.name) ∧
    ∀ k ∈ c.clauses, ∃ f ∈ parts, k.States f
  head : c.Heads rule.head ∧ rule.head.variableNames = c.headReferents.map Referent.name

/-! ## Writing -/

namespace Draft

variable {α β : Type} {d d' d'' : Draft} {ks ks' : List Clause}

/-- **What a draft has got** by some clauses: the body still has its formulas, all clauses are stated, and
nothing else is new. -/
structure Got (ks : List Clause) (d d' : Draft) : Prop where
  kept : ∀ f ∈ d.body, f ∈ d'.body
  stated : ∀ k ∈ ks, ∃ f ∈ d'.body, k.States f
  only : ∀ f ∈ d'.body, f ∈ d.body ∨ ∃ k ∈ ks, k.States f

theorem Got.none (h : d'.body = d.body) : Got [] d d' :=
  ⟨fun _ hf => h ▸ hf, fun _ hk => (List.not_mem_nil hk).elim, fun _ hf => .inl (h ▸ hf)⟩

theorem Got.trans (h : Got ks d d') (h' : Got ks' d' d'') : Got (ks ++ ks') d d'' := by
  refine ⟨fun f hf => h'.kept f (h.kept f hf), fun k hk => ?_, fun f hf => ?_⟩
  · rcases List.mem_append.1 hk with hk | hk
    · obtain ⟨f, hf, hs⟩ := h.stated k hk
      exact ⟨f, h'.kept f hf, hs⟩
    · exact h'.stated k hk
  · rcases h'.only f hf with hf | ⟨k, hk, hs⟩
    · rcases h.only f hf with hf | ⟨k, hk, hs⟩
      · exact .inl hf
      · exact .inr ⟨k, List.mem_append_left _ hk, hs⟩
    · exact .inr ⟨k, List.mem_append_right _ hk, hs⟩

/-- **What writing comes to**: the answer has a property, and the draft gets some clauses. -/
def Writes (m : StateM Draft α) (P : α → Prop) (ks : List Clause) : Prop :=
  ∀ d, P (m.run d).1 ∧ Got ks d (m.run d).2

namespace Writes

theorem pure {P : α → Prop} {a : α} (h : P a) : Writes (Pure.pure a) P [] := fun _ => ⟨h, .none rfl⟩

/-- **Writing in sequence.** -/
theorem bind {m : StateM Draft α} {f : α → StateM Draft β} {P : α → Prop} {Q : β → Prop}
    (hm : Writes m P ks) (hf : ∀ a, P a → Writes (f a) Q ks') : Writes (m >>= f) Q (ks ++ ks') := by
  intro d
  obtain ⟨hp, hg⟩ := hm d
  obtain ⟨hq, hg'⟩ := hf _ hp (m.run d).2
  exact ⟨hq, hg.trans hg'⟩

/-- Nothing is written before the rest. -/
theorem bind_nil {m : StateM Draft α} {f : α → StateM Draft β} {P : α → Prop} {Q : β → Prop}
    (hm : Writes m P []) (hf : ∀ a, P a → Writes (f a) Q ks) : Writes (m >>= f) Q ks := hm.bind hf

theorem imp {m : StateM Draft α} {P Q : α → Prop} (hm : Writes m P ks) (h : ∀ a, P a → Q a) : Writes m Q ks :=
  fun d => ⟨h _ (hm d).1, (hm d).2⟩

end Writes

theorem writes_use (name : String) : Writes (use name) (· = .variable name) [] := by
  intro d
  refine ⟨rfl, .none ?_⟩
  show (if d.quantified.contains name then d else _).body = d.body
  split <;> rfl

theorem writes_add {k : Clause} {f : Formula} (h : k.States f) : Writes (add f) (fun _ => True) [k] := by
  refine fun d => ⟨trivial, fun g hg => List.mem_append_left _ hg, fun k' hk => ?_, fun g hg => ?_⟩
  · rw [List.mem_singleton.1 hk]
    exact ⟨f, List.mem_append_right _ (List.mem_singleton.2 rfl), h⟩
  · rcases List.mem_append.1 hg with hg | hg
    · exact .inl hg
    · rw [List.mem_singleton.1 hg]
      exact .inr ⟨k, List.mem_singleton.2 rfl, h⟩

theorem body_prefixFor (config : Config) (uri : String) (d : Draft) :
    ((prefixFor config uri).run d).2.body = d.body := by
  unfold prefixFor
  simp only [StateT.run_bind, StateT.run_get, pure_bind]
  cases d.prefixes.keyOf? uri <;> rfl

/-- **A symbol** spells its name, and the body stays as it is. -/
theorem writes_symbol (config : Config) (name : QName) : Writes (symbol config name) name.Spells [] := by
  intro d
  unfold symbol QName.Spells
  split
  · exact ⟨⟨_, rfl⟩, .none (body_prefixFor config name.uri d)⟩
  · exact ⟨rfl, .none rfl⟩

/-- **A property is bound**, unless its frame is in the body already. -/
theorem writes_bindProperty (config : Config) (number : Nat) (p : String) :
    Writes (bindProperty config (Referent.subject number).term p) (fun _ => True) [.property number p] := by
  unfold bindProperty
  refine (writes_use _).bind_nil fun value hvalue => (writes_symbol config ⟨p⟩).bind_nil fun slot hslot => ?_
  subst hvalue
  have hstates : Clause.States (.property number p) _ := .property hslot
  intro d
  show True ∧ Got _ d ((if !d.body.contains _ then add _ else Pure.pure () : StateM Draft Unit).run d).2
  split
  · exact writes_add hstates d
  · -- the frame that is there states the property
    rename_i hthere
    refine ⟨trivial, fun f hf => hf, fun k hk => ?_, fun f hf => .inl hf⟩
    rw [List.mem_singleton.1 hk]
    simp only [Bool.not_eq_true, Bool.not_eq_false', List.contains_iff_mem] at hthere
    exact ⟨_, hthere, hstates⟩

theorem writes_bindProperties (config : Config) (number : Nat) (ps : List String) :
    Writes (bindProperties config (Referent.subject number).term ps) (fun _ => True)
      (ps.map (.property number)) := by
  induction ps with
  | nil => exact Writes.pure trivial
  | cons p ps ih => exact (writes_bindProperty config number p).bind fun _ _ => ih

/-- A condition on a subject states its clauses. -/
theorem writes_restrict? (config : Config) (number : Nat) (c? : Option Condition) :
    Writes (restrict? config (Referent.subject number).term c?) (fun _ => True)
      (Clause.ofCondition? number c?) := by
  cases c? with
  | none => exact .pure trivial
  | some c => exact (writes_bindProperties config number c.properties).bind fun _ _ => writes_add .condition

/-- **Steps state their clauses**, and lead to their last value. -/
theorem writes_follow (config : Config) (number : Nat) (steps : List PathStep) (walked : List QName) :
    Writes (follow config (Referent.subject number).term walked (Referent.reached number walked).term steps)
      (· = (Referent.reached number (walked ++ steps.map PathStep.name)).term)
      (Clause.ofSteps number walked steps) := by
  induction steps generalizing walked with
  | nil => exact .pure (by rw [List.map_nil, List.append_nil])
  | cons s steps ih =>
    unfold follow
    refine (writes_use _).bind_nil fun value hvalue => (writes_symbol config s.name).bind_nil fun slot hslot => ?_
    -- the value that the step leads to is where the rest sets out from
    have hreached : value = (Referent.reached number (walked ++ [s.name])).term := by
      rw [hvalue]
      unfold Referent.reached
      rw [if_neg (by simp)]
      rfl
    subst hvalue
    refine (writes_add (Clause.States.step hslot)).bind fun _ _ => ?_
    refine (writes_restrict? config number s.condition).bind fun _ _ => ?_
    rw [hreached]
    refine (ih (walked ++ [s.name])).imp fun t ht => ?_
    rw [ht, List.append_assoc]
    rfl

/-- **A source entity states its clauses**, and answers its value. -/
theorem writes_bindSource (config : Config) (number : Nat) (e : Entity) :
    Writes (bindSource config number e) (· = (Referent.reached number e.names).term)
      (.member number e.type :: (Clause.ofSteps number [] e.path ++ Clause.ofCondition? number e.condition)) := by
  unfold bindSource
  refine (writes_use _).bind_nil fun subject hsubject => (writes_symbol config e.type).bind_nil fun type htype => ?_
  subst hsubject
  have hstates : Clause.States (.member number e.type) _ := .member htype
  refine (writes_add hstates).bind fun _ _ => ?_
  refine (writes_follow config number e.path []).bind fun value hvalue => ?_
  have hlast := (writes_restrict? config number e.condition).bind
    fun _ _ => (Writes.pure hvalue : Writes (Pure.pure value) (· = (Referent.reached number e.names).term) [])
  rw [List.append_nil] at hlast
  exact hlast

theorem writes_bindSources (config : Config) (number : Nat) (es : List Entity) :
    Writes (bindSources config number es) (· = (Referent.ofSources number es).map Referent.term)
      (Clause.ofSources number es) := by
  induction es generalizing number with
  | nil => exact .pure rfl
  | cons e es ih =>
    refine (writes_bindSource config number e).bind fun value hvalue => ?_
    rw [← List.append_nil (Clause.ofSources (number + 1) es)]
    refine (ih (number + 1)).bind fun values hvalues => .pure ?_
    rw [hvalue, hvalues]
    rfl

theorem writes_symbols (config : Config) (names : List QName) :
    Writes (symbols config names) (List.Forall₂ QName.Spells names) [] := by
  induction names with
  | nil => exact .pure .nil
  | cons name names ih =>
    exact (writes_symbol config name).bind_nil fun s hs => ih.bind_nil fun ss hss => .pure (.cons hs hss)

/-- **The head of a cell.** -/
theorem writes_head (config : Config) (c : Cell) :
    Writes (head config c ((Referent.ofSources 0 c.source).map Referent.term) Referent.target.term) c.Heads [] := by
  unfold head
  split
  · rename_i h
    exact .pure (.none h)
  · rename_i e rest h
    split
    · rename_i htype
      exact (writes_symbol config e.type).bind_nil fun type hs => .pure (.member h htype hs)
    · rename_i htype
      exact (writes_symbols config e.names).bind_nil fun slots hs => .pure (.slot h (by simpa using htype) hs)

/-- **Writing a rule** states the clauses of its cell. -/
theorem writes_write (config : Config) (c : Cell) : Writes (write config c) c.Heads c.clauses := by
  unfold write
  rw [← List.append_nil c.clauses]
  refine (writes_bindSources config 0 c.source).bind fun values hvalues => ?_
  refine (writes_use "t").bind_nil fun target htarget => ?_
  subst hvalues htarget
  exact writes_head config c

end Draft

/-! ## Rules -/

namespace Cell

variable {c : Cell}

theorem variableNamesAll_terms (os : List Referent) (ls : List Literal) :
    Term.variableNamesAll (os.map Referent.term ++ ls.map Literal.toTerm) = os.map Referent.name := by
  rw [Term.variableNamesAll_append]
  have hliterals : Term.variableNamesAll (ls.map Literal.toTerm) = [] := by
    induction ls with
    | nil => rfl
    | cons l ls ih => exact ih
  rw [hliterals, List.append_nil]
  induction os with
  | nil => rfl
  | cons o os ih => rw [List.map_cons, List.map_cons, Term.variableNamesAll, ih]; rfl

/-- The variables of a head are those of what it speaks of. -/
theorem Heads.variableNames {f : Formula} (h : c.Heads f) : f.variableNames = c.headReferents.map Referent.name := by
  unfold headReferents
  cases h with
  | none h => rw [h]; rfl
  | member h htype _ => rw [h]; simp only [htype]; rfl
  | slot h htype _ =>
    rw [h]
    simp only [htype]
    show Referent.target.name :: Term.variableNamesAll _ = _
    rw [variableNamesAll_terms]
    rfl

/-- **The rule of a cell speaks for it**, whatever prefixes are in use. -/
theorem speaks_ruleFrom (config : Config) (prefixes : TextMap) (c : Cell) :
    (c.ruleFrom config prefixes).1.Speaks c := by
  obtain ⟨hhead, hgot⟩ := Draft.writes_write config c ⟨prefixes, [], []⟩
  refine ⟨⟨_, rfl, fun f hf => ?_, hgot.stated⟩, hhead, hhead.variableNames⟩
  rcases hgot.only f hf with hf | ⟨k, hk, hs⟩
  · cases hf
  · exact ⟨k, hk, hs, hs.variableNames⟩

end Cell

end FeatureAlignment
