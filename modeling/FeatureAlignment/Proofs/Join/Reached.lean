import FeatureAlignment.Proofs.Join.Told
import FeatureAlignment.Proofs.Path.Along

/-!
# The place of a nested type is reached

The place where a join finds its nested type comes from the crossing of a path, from the element
around which a path ends, or from a search of the schema. In a plain schema a path to the place
reaches the nested type, whichever of the three has found it.

* `Nesting.Held`: the place is behind a way within the container, with an element of its type.
* `Nesting.held_of_tells`, `Nesting.held_ofSchema?`: what cells and schema tell is held.
* `Environment.nesting_reached`: the segments of the place, and one more step, resolve with a crossing
  from there.
-/

namespace FeatureAlignment

open SchemaIndex (Along Holds Plain)

/-! ## Features among the nodes -/

namespace SchemaIndex

variable {index : SchemaIndex} {exclude : QName} {found : PropertyDefinition × TypeDefinition}

/-- **An element of another feature type**, among the nodes of children. -/
structure Contains (index : SchemaIndex) (exclude : QName) (nodes : List Child)
    (found : PropertyDefinition × TypeDefinition) : Prop where
  node : .property found.1 ∈ nodes
  element : found.1.isAttribute = false
  type : index.propertyType? found.1 = some found.2
  feature : found.2.feature = true
  other : found.2.name ≠ exclude

mutual

theorem featureOf?_contains : ∀ c : Child, index.featureOf? exclude c = some found →
    index.Contains exclude (Child.nodes c) found
  | .property p, h => by
    unfold featureOf? at h
    unfold Child.nodes
    cases ha : p.isAttribute with
    | true => simp [ha] at h
    | false =>
      rw [ha] at h
      obtain ⟨t, ht, rfl⟩ := Option.map_eq_some_iff.1 h
      obtain ⟨ht, hf⟩ := Option.filter_eq_some_iff.1 ht
      simp only [Bool.and_eq_true, decide_eq_true_eq] at hf
      exact ⟨List.mem_singleton.2 rfl, ha, ht, hf.1, hf.2⟩
  | .group _ children, h => by
    unfold featureOf? at h
    unfold Child.nodes
    have hc := featureAmong?_contains children h
    exact { hc with node := List.mem_cons_of_mem _ hc.node }

/-- **A feature found among children** is an element among their nodes. -/
theorem featureAmong?_contains : ∀ cs : List Child, index.featureAmong? exclude cs = some found →
    index.Contains exclude (Child.nodesAmong cs) found
  | [], h => by unfold featureAmong? at h; cases h
  | c :: cs, h => by
    unfold featureAmong? at h
    rw [Child.nodesAmong_cons]
    split at h
    · rename_i found' hfound
      cases h
      have hc := featureOf?_contains c hfound
      exact { hc with node := List.mem_append_left _ hc.node }
    · have hc := featureAmong?_contains cs h
      exact { hc with node := List.mem_append_right _ hc.node }

end

end SchemaIndex

/-! ## Searching along a way -/

namespace Search

variable {index : SchemaIndex} {t : TypeDefinition} {wanted : QName} {enter : Enter} {path : List Segment}

/-- **The end of a search**: a way within the type, and an element of the wanted type behind it. -/
inductive Ends (index : SchemaIndex) (t : TypeDefinition) (wanted : QName) (path : List Segment) : Prop
  | intro (children : List Child) (e : PropertyDefinition) (nested : TypeDefinition) :
      Along index t path children → .property e ∈ Child.nodesAmong children → e.isAttribute = false →
      index.propertyType? e = some nested → nested.name = wanted → Ends index t wanted path

/-- A way to search keeps to a way within the type: started behind one, it ends behind one. -/
def Keeps (index : SchemaIndex) (t : TypeDefinition) (wanted : QName) (enter : Enter) : Prop :=
  ∀ (segments : List Segment) (children : List Child) (visited : List QName) (path : List Segment),
    Along index t segments children → (enter children segments visited).found = some path →
      Ends index t wanted path

section

variable {segments : List Segment} {children : List Child}

mutual

theorem inChild_ends (henter : Keeps index t wanted enter) (halong : Along index t segments children) :
    ∀ (c : Child) (visited : List QName), Child.nodes c ⊆ Child.nodesAmong children →
      (inChild index wanted enter segments visited c).found = some path → Ends index t wanted path
  | .group header inner, visited, hsub, h => by
    unfold inChild at h
    unfold Child.nodes at hsub
    exact inChildren_ends henter halong inner visited (List.subset_of_cons_subset hsub) h
  | .property p, visited, hsub, h => by
    have hmem := hsub (Child.mem_nodes_self _)
    unfold inChild at h
    cases ha : p.isAttribute with
    | true => simp [ha] at h
    | false =>
      rw [ha] at h
      simp only [Bool.false_eq_true, if_false] at h
      cases ht : index.propertyType? p with
      | none => simp [ht] at h
      | some u =>
        rw [ht] at h
        simp only at h
        split at h
        · rename_i hw
          cases h
          exact .intro children p u halong hmem ha ht hw
        · split at h
          · cases h
          · -- a type that is entered is no feature, so its elements stay in the container
            rename_i hn
            have hfeature : u.feature = false := by
              cases hu : u.feature with
              | false => rfl
              | true => simp [hu] at hn
            have hstays : index.StaysIn t.name p := by
              intro u' hu' hf
              rw [ht] at hu'
              cases hu'
              rw [hfeature] at hf
              cases hf
            have hchildren : u.children = index.propertyChildren p := by
              unfold SchemaIndex.propertyChildren
              rw [ht]
              rfl
            rw [hchildren] at h
            exact henter _ _ _ _ (.element _ _ p none halong hmem ha hstays) h

/-- **A search ends behind a way within the type**, if it starts behind one. -/
theorem inChildren_ends (henter : Keeps index t wanted enter) (halong : Along index t segments children) :
    ∀ (cs : List Child) (visited : List QName), Child.nodesAmong cs ⊆ Child.nodesAmong children →
      (inChildren index wanted enter segments visited cs).found = some path → Ends index t wanted path
  | [], _, _, h => by unfold inChildren at h; cases h
  | c :: cs, visited, hsub, h => by
    rw [Child.nodesAmong_cons] at hsub
    obtain ⟨hc, hcs⟩ := List.append_subset.1 hsub
    unfold inChildren at h
    simp only at h
    split at h
    · exact inChild_ends henter halong c visited hc h
    · exact inChildren_ends henter halong cs _ hcs h

end

end

theorem keeps_within (index : SchemaIndex) (t : TypeDefinition) (wanted : QName) (n : Nat) :
    Keeps index t wanted (within index wanted n) := by
  induction n with
  | zero => intro segments children visited path _ h; cases h
  | succ n ih =>
    intro segments children visited path halong h
    exact inChildren_ends ih halong children visited (fun _ hc => hc) h

end Search

/-! ## Places of nested types -/

namespace Nesting

variable {env : Environment} {container joined : QName} {n : Nesting}

/-- **A place that is held**: a way within the container leads to an element of its type. -/
def Held (index : SchemaIndex) (container : QName) (n : Nesting) : Prop :=
  ∃ t nested, index.get? container = some t ∧ index.Holds t n.segments nested ∧ n.type = nested.name

theorem held_of_tells (hp : env.target.Plain) {c : Cell} (h : c.Tells env.target container joined n) :
    n.Held env.target container := by
  -- whatever the cell tells, the steps of its path tell a way in the container
  have htold : ∀ place, c.Asked env.target container joined place →
      ∃ (t : TypeDefinition) (p : Position), env.target.get? container = some t ∧ p.Tells env.target t ∧
        p.place = place := by
    intro place hasked
    obtain ⟨e, -, -, hplace⟩ := hasked.path
    obtain ⟨-, t, p, ht, hp', hpp⟩ := SchemaIndex.resolve_eq_ok.1 hplace
    exact ⟨t, p, ht, hp.told (Position.tells_start env.target t) hp', hpp⟩
  cases h with
  | crossing place x hasked hx =>
    obtain ⟨t, p, ht, htells, rfl⟩ := htold place hasked
    obtain ⟨nested, hholds, hname⟩ := htells.first x hx
    exact ⟨t, nested, ht, hholds, hname⟩
  | around place last element nested hasked hcrossings hlast hfound =>
    obtain ⟨t, p, ht, htells, rfl⟩ := htold place hasked
    obtain ⟨-, children, halong, -, hparent⟩ := htells.inside hcrossings
    have hc := SchemaIndex.featureAmong?_contains _ hfound
    rw [← hparent last hlast] at hc
    have hother : nested.name ≠ t.name := by
      rw [SchemaIndex.get?_name ht]
      exact hc.other
    exact ⟨t, nested, ht, .intro children element halong hc.node hc.element hc.type hc.feature hother, rfl⟩

theorem held_ofSchema? {a : Alignment} (h : ofSchema? env.target a container joined = some n)
    {nested : TypeDefinition} (hn : env.target.get? n.type = some nested) (hf : nested.feature = true) :
    n.Held env.target container := by
  unfold ofSchema? at h
  obtain ⟨type, htype, h⟩ := Option.bind_eq_some_iff.1 h
  obtain ⟨t, ht, h⟩ := Option.bind_eq_some_iff.1 h
  obtain ⟨segments, hs, h⟩ := Option.bind_eq_some_iff.1 h
  cases h
  have hne : type ≠ container := by simpa using List.find?_some htype
  obtain ⟨children, e, nested', halong, hmem, ha, he, hname⟩ :=
    Search.keeps_within env.target t type Search.room [] t.children [t.name] segments .here hs
  -- the element that was found is of the feature type in question
  have hsame : nested' = nested := by
    have hget := SchemaIndex.propertyType?_get? he
    rw [hname, hn] at hget
    exact (Option.some.inj hget).symm
  subst hsame
  have hother : nested'.name ≠ t.name := by
    rw [SchemaIndex.get?_name ht, hname]
    exact hne
  exact ⟨t, nested', ht, .intro children e halong hmem ha he hf hother, hname.symm⟩

end Nesting

namespace Environment

variable {env : Environment} {container joined : QName} {n : Nesting} {nested : TypeDefinition}

/-- **Where a join puts its nested type is where paths reach it.** In a plain schema, if the place of
a joined type is found and its type is a feature type, then some element of this type is behind the
segments of the place: they resolve from the container, followed by a step to the element, and the
first crossing goes from the container, over exactly these segments, into the nested type. -/
theorem nesting_reached (hp : env.target.Plain) (h : env.nesting? container joined = some n)
    (hn : env.target.get? n.type = some nested) (hf : nested.feature = true) :
    ∃ e, env.target.Element e ∧ env.target.propertyType? e = some nested ∧
      ∃ place, env.target.resolve container (n.segments.map Segment.step ++ [⟨e.name, none, none⟩]) =
          .ok place ∧
        place.crossings.head? = some ⟨container, n.segments, n.type, nested.elementName⟩ := by
  have hheld : n.Held env.target container := by
    unfold nesting? at h
    obtain ⟨a, -, h⟩ := Option.bind_eq_some_iff.1 h
    rcases Option.or_eq_some_iff.1 h with h | ⟨-, h⟩
    · obtain ⟨c, -, h⟩ := List.exists_of_findSome?_eq_some h
      exact Nesting.held_of_tells hp (Nesting.ofCell?_eq_some.1 h)
    · exact Nesting.held_ofSchema? h hn hf
  obtain ⟨t, nested', ht, hholds, hname⟩ := hheld
  obtain ⟨e, ha, he, place, hplace, hcrossings⟩ := hp.resolve_way ht hholds
  have hsame : nested' = nested := by
    have hget := SchemaIndex.propertyType?_get? he
    rw [← hname, hn] at hget
    exact (Option.some.inj hget).symm
  subst hsame
  exact ⟨e, ha, he, place, hplace, by rw [hcrossings, hname]; rfl⟩

end Environment

namespace Rivers

theorem target_plain : target.Plain := ⟨by decide, by decide +kernel⟩

/-- **The bank that a river refers to** is reached over the side that refers to it. -/
theorem referred_bank_reached :
    target.Plain ∧
      environment.nesting? ⟨"River"⟩ ⟨"BankRow"⟩ = some ⟨[⟨⟨"right"⟩, none⟩], ⟨"Bank"⟩, true⟩ ∧
      ∃ nested, target.get? ⟨"Bank"⟩ = some nested ∧ nested.feature = true ∧
        ∃ e, target.Element e ∧ target.propertyType? e = some nested ∧
          ∃ place, target.resolve ⟨"River"⟩ [⟨⟨"right"⟩, none, none⟩, ⟨e.name, none, none⟩] = .ok place ∧
            place.crossings.head? =
              some ⟨⟨"River"⟩, [⟨⟨"right"⟩, none⟩], ⟨"Bank"⟩, nested.elementName⟩ :=
  ⟨target_plain, rfl, _, rfl, rfl,
    Environment.nesting_reached target_plain (show environment.nesting? ⟨"River"⟩ ⟨"BankRow"⟩ = some _ from rfl)
      rfl rfl⟩

end Rivers

end FeatureAlignment
