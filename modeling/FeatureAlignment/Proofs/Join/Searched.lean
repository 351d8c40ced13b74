import FeatureAlignment.Proofs.Join.Reached
import Mathlib.Data.List.Perm.Subperm

/-!
# What a search finds

A search enters each type once, and counts it as entered even where there is no room left to look at its children.
So what it finds depends on the way by which it comes to a type first. On a way that goes too deep it may use up
types that a shorter way needs, and miss what is near.

It misses nothing as long as no way over different types leads too deep to a type of the route in question.

* `SchemaIndex.Shows`: an element of a known type among nodes.
* `Search.Route`: types by which elements lead from a container, none of them a feature or of the wanted type.
* `Search.Exhausted`: what a search without result has entered; `Search.exhausts_within` has it for every depth.
* `SchemaIndex.featurePath?_complete`: a route within reach leads to a result, if its types are in reach by every way.
-/

namespace FeatureAlignment

/-- **An element of a type** among nodes, where the type is known. -/
def SchemaIndex.Shows (index : SchemaIndex) (nodes : List Child) (u : TypeDefinition) : Prop :=
  ∃ p, .property p ∈ nodes ∧ p.isAttribute = false ∧ index.propertyType? p = some u

namespace Search

variable {index : SchemaIndex} {wanted : QName} {t u v : TypeDefinition} {types : List TypeDefinition}
  {visited visited' : List QName} {nodes : List Child} {enter : Enter} {n : Nat}

/-- **A route** from a container: the types that elements lead through, the last one first and the container at the
end. Features and the wanted type are not gone through. -/
inductive Route (index : SchemaIndex) (wanted : QName) (t : TypeDefinition) : List TypeDefinition → Prop
  | start : Route index wanted t [t]
  | enter (u v : TypeDefinition) (types : List TypeDefinition) : Route index wanted t (u :: types) →
      index.Shows (Child.nodesAmong u.children) v → v.feature = false → v.name ≠ wanted →
      Route index wanted t (v :: u :: types)

/-- **A route over different types.** -/
def Straight (types : List TypeDefinition) : Prop := (types.map TypeDefinition.name).Nodup

/-- **A type within reach**: no route over different types leads to it through more types than a search may enter
one inside the other. -/
def InReach (index : SchemaIndex) (wanted : QName) (t v : TypeDefinition) : Prop :=
  ∀ others, Route index wanted t (v :: others) → Straight (v :: others) → others.length < room

/-! ## Searches without result -/

/-- **Nodes that have been looked at**: none is of the wanted type, and each type among them is a feature or has
been entered. -/
def Scanned (index : SchemaIndex) (wanted : QName) (visited : List QName) (nodes : List Child) : Prop :=
  ∀ u, index.Shows nodes u → u.name ≠ wanted ∧ (u.feature = true ∨ u.name ∈ visited)

/-- **A type that has been entered** over a route of different types. If there was room, its nodes have been looked
at. -/
inductive Entered (index : SchemaIndex) (wanted : QName) (t : TypeDefinition) (visited : List QName) : QName → Prop
  | intro (u : TypeDefinition) (types : List TypeDefinition) : Route index wanted t (u :: types) →
      Straight (u :: types) → (types.length < room → Scanned index wanted visited (Child.nodesAmong u.children)) →
      Entered index wanted t visited u.name

/-- **What a search without result has done**: it forgets nothing, and what is new has been entered. -/
structure Exhausted (index : SchemaIndex) (wanted : QName) (t : TypeDefinition)
    (before after : List QName) : Prop where
  grows : before ⊆ after
  entered : ∀ name ∈ after, name ∈ before ∨ Entered index wanted t after name

/-- **A way to search that exhausts** what is `n` lists of children deep: without result, it has looked at all nodes
of the type in which it started, if there was any room at all. -/
def Exhausts (index : SchemaIndex) (wanted : QName) (t : TypeDefinition) (n : Nat) (enter : Enter) : Prop :=
  ∀ (u : TypeDefinition) (types : List TypeDefinition) (segments : List Segment) (visited : List QName),
    Route index wanted t (u :: types) → Straight (u :: types) → (∀ v ∈ u :: types, v.name ∈ visited) →
      types.length + n = room → (enter u.children segments visited).found = none →
      Exhausted index wanted t visited (enter u.children segments visited).visited ∧
        (types.length < room →
          Scanned index wanted (enter u.children segments visited).visited (Child.nodesAmong u.children))

theorem Scanned.mono (h : Scanned index wanted visited nodes) (hv : visited ⊆ visited') :
    Scanned index wanted visited' nodes := by
  intro u hu
  obtain ⟨hne, hseen⟩ := h u hu
  exact ⟨hne, hseen.imp id fun hmem => hv hmem⟩

theorem Scanned.append {more : List Child} (h : Scanned index wanted visited nodes)
    (hmore : Scanned index wanted visited more) : Scanned index wanted visited (nodes ++ more) := by
  rintro u ⟨p, hp, ha, hu⟩
  rcases List.mem_append.1 hp with hp | hp
  · exact h u ⟨p, hp, ha, hu⟩
  · exact hmore u ⟨p, hp, ha, hu⟩

theorem Entered.mono {name : QName} (h : Entered index wanted t visited name) (hv : visited ⊆ visited') :
    Entered index wanted t visited' name := by
  cases h with
  | intro u types hroute hstraight hscanned =>
    exact .intro u types hroute hstraight fun hroom => (hscanned hroom).mono hv

theorem Exhausted.refl (visited : List QName) : Exhausted index wanted t visited visited :=
  ⟨fun _ h => h, fun _ h => .inl h⟩

theorem Exhausted.trans {after : List QName} (h : Exhausted index wanted t visited visited')
    (h' : Exhausted index wanted t visited' after) : Exhausted index wanted t visited after := by
  refine ⟨fun name hname => h'.grows (h.grows hname), fun name hname => ?_⟩
  rcases h'.entered name hname with hname | hentered
  · exact (h.entered name hname).imp id fun hentered => hentered.mono h'.grows
  · exact .inr hentered

/-- A property is all that it shows. -/
theorem scanned_property {p : PropertyDefinition}
    (h : p.isAttribute = false → ∀ u, index.propertyType? p = some u →
      u.name ≠ wanted ∧ (u.feature = true ∨ u.name ∈ visited)) :
    Scanned index wanted visited (Child.nodes (.property p)) := by
  rintro u ⟨q, hq, ha, hu⟩
  cases List.mem_singleton.1 hq
  exact h ha u hu

mutual

theorem inChild_exhausted (henter : Exhausts index wanted t n enter) (hroute : Route index wanted t (u :: types))
    (hstraight : Straight (u :: types)) (hroom : (u :: types).length + n = room) (segments : List Segment) :
    ∀ (c : Child) (visited : List QName),
    Child.nodes c ⊆ Child.nodesAmong u.children → (∀ v ∈ u :: types, v.name ∈ visited) →
      (inChild index wanted enter segments visited c).found = none →
      Exhausted index wanted t visited (inChild index wanted enter segments visited c).visited ∧
        Scanned index wanted (inChild index wanted enter segments visited c).visited (Child.nodes c)
  | .group header inner, visited, hsub, hvisited, h => by
    unfold inChild at h ⊢
    unfold Child.nodes at hsub ⊢
    obtain ⟨hexhausted, hscanned⟩ :=
      inChildren_exhausted henter hroute hstraight hroom segments inner visited (List.subset_of_cons_subset hsub)
        hvisited h
    refine ⟨hexhausted, ?_⟩
    -- the group itself is no element
    rintro w ⟨p, hp, ha, hw⟩
    rcases List.mem_cons.1 hp with heq | hp
    · cases heq
    · exact hscanned w ⟨p, hp, ha, hw⟩
  | .property p, visited, hsub, hvisited, h => by
    have hmem : .property p ∈ Child.nodesAmong u.children := hsub (Child.mem_nodes_self _)
    unfold inChild at h ⊢
    cases ha : p.isAttribute with
    | true =>
      rw [if_pos rfl]
      exact ⟨.refl visited, scanned_property fun hno => by rw [ha] at hno; cases hno⟩
    | false =>
      rw [ha, if_neg Bool.false_ne_true] at h
      rw [if_neg Bool.false_ne_true]
      cases hw : index.propertyType? p with
      | none => exact ⟨.refl visited, scanned_property fun _ w hw' => by rw [hw] at hw'; cases hw'⟩
      | some w =>
        rw [hw] at h
        simp only at h ⊢
        by_cases hwanted : w.name = wanted
        · rw [if_pos hwanted] at h
          cases h
        rw [if_neg hwanted] at h ⊢
        by_cases hskip : (w.feature || visited.contains w.name) = true
        · rw [if_pos hskip]
          refine ⟨.refl visited, scanned_property fun _ w' hw' => ?_⟩
          cases hw.symm.trans hw'
          rw [Bool.or_eq_true, List.contains_iff_mem] at hskip
          exact ⟨hwanted, hskip⟩
        · rw [if_neg hskip] at h ⊢
          rw [Bool.or_eq_true, List.contains_iff_mem, not_or, Bool.not_eq_true] at hskip
          obtain ⟨hfeature, hnew⟩ := hskip
          -- the type is new, so the route to it goes over different types again
          have hroute' : Route index wanted t (w :: u :: types) :=
            .enter u w types hroute ⟨p, hmem, ha, hw⟩ hfeature hwanted
          have hstraight' : Straight (w :: u :: types) := by
            refine List.nodup_cons.2 ⟨fun hin => ?_, hstraight⟩
            obtain ⟨v, hv, hname⟩ := List.mem_map.1 hin
            exact hnew (hname ▸ hvisited v hv)
          have hvisited' : ∀ v ∈ w :: u :: types, v.name ∈ w.name :: visited := by
            intro v hv
            rcases List.mem_cons.1 hv with rfl | hv
            · exact List.mem_cons_self
            · exact List.mem_cons_of_mem _ (hvisited v hv)
          obtain ⟨hexhausted, hscanned⟩ := henter w (u :: types) _ _ hroute' hstraight' hvisited' hroom h
          refine ⟨⟨fun name hname => hexhausted.grows (List.mem_cons_of_mem _ hname), fun name hname => ?_⟩,
            scanned_property fun _ w' hw' => ?_⟩
          · rcases hexhausted.entered name hname with hname | hentered
            · rcases List.mem_cons.1 hname with rfl | hname
              · exact .inr (.intro w (u :: types) hroute' hstraight' hscanned)
              · exact .inl hname
            · exact .inr hentered
          · cases hw.symm.trans hw'
            exact ⟨hwanted, .inr (hexhausted.grows List.mem_cons_self)⟩

/-- **A search of children without result** has looked at all their nodes. -/
theorem inChildren_exhausted (henter : Exhausts index wanted t n enter) (hroute : Route index wanted t (u :: types))
    (hstraight : Straight (u :: types)) (hroom : (u :: types).length + n = room) (segments : List Segment) :
    ∀ (cs : List Child) (visited : List QName),
    Child.nodesAmong cs ⊆ Child.nodesAmong u.children → (∀ v ∈ u :: types, v.name ∈ visited) →
      (inChildren index wanted enter segments visited cs).found = none →
      Exhausted index wanted t visited (inChildren index wanted enter segments visited cs).visited ∧
        Scanned index wanted (inChildren index wanted enter segments visited cs).visited (Child.nodesAmong cs)
  | [], visited, _, _, _ => by
    refine ⟨.refl visited, ?_⟩
    rintro w ⟨p, hp, -⟩
    cases hp
  | c :: cs, visited, hsub, hvisited, h => by
    rw [Child.nodesAmong_cons] at hsub ⊢
    obtain ⟨hc, hcs⟩ := List.append_subset.1 hsub
    unfold inChildren at h ⊢
    simp only at h ⊢
    cases hfound : (inChild index wanted enter segments visited c).found with
    | some path =>
      rw [hfound] at h
      simp only at h
      rw [hfound] at h
      cases h
    | none =>
      rw [hfound] at h
      obtain ⟨hfirst, hscanned⟩ :=
        inChild_exhausted henter hroute hstraight hroom segments c visited hc hvisited hfound
      obtain ⟨hrest, hscanned'⟩ := inChildren_exhausted henter hroute hstraight hroom segments cs _ hcs
        (fun v hv => hfirst.grows (hvisited v hv)) h
      exact ⟨hfirst.trans hrest, (hscanned.mono hrest.grows).append hscanned'⟩

end

/-- **Every search exhausts** what it has room for. -/
theorem exhausts_within (index : SchemaIndex) (wanted : QName) (t : TypeDefinition) (n : Nat) :
    Exhausts index wanted t n (within index wanted n) := by
  induction n with
  | zero =>
    intro u types segments visited _ _ _ hroom _
    exact ⟨.refl visited, fun hlt => absurd hroom (Nat.ne_of_lt hlt)⟩
  | succ n ih =>
    intro u types segments visited hroute hstraight hvisited hroom h
    have hdeeper : (u :: types).length + n = room := by rw [List.length_cons]; omega
    obtain ⟨hexhausted, hscanned⟩ := inChildren_exhausted ih hroute hstraight hdeeper segments u.children visited
      (fun _ hc => hc) hvisited h
    exact ⟨hexhausted, fun _ => hscanned⟩

/-! ## Types within reach -/

/-- The types of a route are known, if the container is. -/
theorem Route.get? (hc : index.get? t.name = some t) (h : Route index wanted t types) :
    ∀ v ∈ types, index.get? v.name = some v := by
  induction h with
  | start =>
    intro v hv
    rw [List.mem_singleton.1 hv]
    exact hc
  | enter u v types hroute hshows hfeature hwanted ih =>
    obtain ⟨p, -, -, hv⟩ := hshows
    exact List.forall_mem_cons.2 ⟨SchemaIndex.propertyType?_get? hv, ih⟩

/-- **A search without result has looked at every type of a route**, if they are within reach. -/
theorem Route.scanned (hc : index.get? t.name = some t) (hroute : Route index wanted t types)
    (hreach : ∀ v ∈ types, InReach index wanted t v)
    (hstart : Scanned index wanted visited (Child.nodesAmong t.children))
    (hentered : ∀ name ∈ visited, name = t.name ∨ Entered index wanted t visited name) :
    ∀ v ∈ types, Scanned index wanted visited (Child.nodesAmong v.children) := by
  induction hroute with
  | start =>
    intro v hv
    rw [List.mem_singleton.1 hv]
    exact hstart
  | enter u v before hbefore hshows hfeature hwanted ih =>
    obtain ⟨hreachv, hreach⟩ := List.forall_mem_cons.1 hreach
    have hscanned := ih hreach
    refine List.forall_mem_cons.2 ⟨?_, hscanned⟩
    have hvisited : v.name ∈ visited := by
      rcases (hscanned u List.mem_cons_self v hshows).2 with hf | hvisited
      · rw [hfeature] at hf
        cases hf
      · exact hvisited
    obtain ⟨p, -, -, hv⟩ := hshows
    have hknown := SchemaIndex.propertyType?_get? hv
    rcases hentered v.name hvisited with hname | hentered
    · -- the route comes back to the container
      rw [hname, hc] at hknown
      cases hknown
      exact hstart
    · generalize hname : v.name = name at hentered
      cases hentered with
      | intro x others hother hstraight hlooked =>
        have hx := hother.get? hc x List.mem_cons_self
        rw [← hname, hknown] at hx
        cases hx
        exact hlooked (hreachv others hother hstraight)

/-- Nothing on a route is of the wanted type, unless the container is. -/
theorem Route.ne_wanted (hne : t.name ≠ wanted) (h : Route index wanted t types) : ∀ v ∈ types, v.name ≠ wanted := by
  induction h with
  | start =>
    intro v hv
    rw [List.mem_singleton.1 hv]
    exact hne
  | enter u v types hroute hshows hfeature hwanted ih => exact List.forall_mem_cons.2 ⟨hwanted, ih⟩

/-- **Small schemas are within reach**: a route over different types is no longer than there are types. -/
theorem inReach_of_length (hc : index.get? t.name = some t) (hne : t.name ≠ wanted) (hwanted : index.Knows wanted)
    (hlength : index.types.length ≤ room + 1) (v : TypeDefinition) : InReach index wanted t v := by
  intro others hroute hstraight
  -- the wanted type is none of those on the route
  have hnodup : (wanted :: (v :: others).map TypeDefinition.name).Nodup := by
    refine List.nodup_cons.2 ⟨fun hin => ?_, hstraight⟩
    obtain ⟨x, hx, hname⟩ := List.mem_map.1 hin
    exact hroute.ne_wanted hne x hx hname
  have hsub : wanted :: (v :: others).map TypeDefinition.name ⊆ index.types.map TypeDefinition.name := by
    obtain ⟨w, hw⟩ := hwanted.exists_type
    refine List.cons_subset.2 ⟨?_, fun name hname => ?_⟩
    · rw [← SchemaIndex.get?_name hw]
      exact List.mem_map_of_mem (SchemaIndex.mem_of_get? hw)
    · obtain ⟨x, hx, rfl⟩ := List.mem_map.1 hname
      exact List.mem_map_of_mem (SchemaIndex.mem_of_get? (hroute.get? hc x hx))
  have hle := (hnodup.subperm hsub).length_le
  rw [List.length_cons, List.length_map, List.length_map, List.length_cons] at hle
  omega

end Search

namespace SchemaIndex

variable {index : SchemaIndex} {container wanted : QName} {t u w : TypeDefinition} {types : List TypeDefinition}

/-- **A search is complete within reach.** If a route leads from the container to a type that has an element of the
wanted type, and all types on it are within reach, then a path is found: a way within the container, with an element
of the wanted type behind it. -/
theorem featurePath?_complete (ht : index.get? container = some t)
    (hroute : Search.Route index wanted t (u :: types))
    (hreach : ∀ v ∈ u :: types, Search.InReach index wanted t v)
    (hshows : index.Shows (Child.nodesAmong u.children) w) (hw : w.name = wanted) :
    ∃ path, index.featurePath? t wanted = some path ∧ Search.Ends index t wanted path := by
  have hc : index.get? t.name = some t := by rw [get?_name ht, ht]
  cases hfound : index.featurePath? t wanted with
  | some path => exact ⟨path, rfl, Search.keeps_within index t wanted Search.room [] t.children _ path .here hfound⟩
  | none =>
    -- without a result, the type at the end of the route would have been looked at
    obtain ⟨hexhausted, hscanned⟩ := Search.exhausts_within index wanted t Search.room t [] [] [t.name] .start
      (List.nodup_singleton _) (fun v hv => by rw [List.mem_singleton.1 hv]; exact List.mem_cons_self) rfl hfound
    have hentered := fun name hname => (hexhausted.entered name hname).imp List.mem_singleton.1 id
    have hend := hroute.scanned hc hreach (hscanned (by decide)) hentered u List.mem_cons_self
    exact absurd hw (hend w hshows).1

end SchemaIndex

/-! ## Mines with a store at the bottom

A mine has a shaft that leads down over some levels, and a store that is also at the bottom of the shaft. In the
store there are lamps. -/

namespace Mines

open Rivers (element)

/-- The name of a level. -/
def levelName (n : Nat) : String := "Level" ++ Text.natural n

/-- A mine. -/
def mine : TypeDefinition :=
  ⟨⟨"Mine"⟩, none, true, false, [element "shaft" (some (levelName 0)) false, element "store" (some "Store") false]⟩

/-- Its store. -/
def store : TypeDefinition := ⟨⟨"Store"⟩, none, false, false, [element "Lamp" (some "Lamp") false]⟩

/-- A lamp. -/
def lamp : TypeDefinition := ⟨⟨"Lamp"⟩, none, true, false, [element "light" none false]⟩

/-- Mines with levels above the store. -/
def target (depth : Nat) : SchemaIndex :=
  ⟨[mine, store, lamp] ++ (List.range depth).map (fun n => ⟨⟨levelName n⟩, none, false, false,
    [if n + 1 = depth then element "store" (some "Store") false
      else element "down" (some (levelName (n + 1))) false]⟩), .empty⟩

/-- The store of a mine, and the lamp in it, at whatever depth. -/
theorem route_store (depth : Nat) :
    Search.Route (target depth) ⟨"Lamp"⟩ mine [store, mine] ∧
      (target depth).Shows (Child.nodesAmong store.children) lamp := by
  have hstore : (target depth).Shows (Child.nodesAmong mine.children) store :=
    ⟨⟨⟨"store"⟩, some ⟨"Store"⟩, false, false⟩, by simp [mine, element, Child.nodesAmong, Child.nodes], rfl, rfl⟩
  have hlamp : (target depth).Shows (Child.nodesAmong store.children) lamp :=
    ⟨⟨⟨"Lamp"⟩, some ⟨"Lamp"⟩, false, false⟩, by simp [store, element, Child.nodesAmong, Child.nodes], rfl, rfl⟩
  exact ⟨.enter mine store [] .start hstore rfl (by decide), hlamp⟩

/-- **Over eleven levels** the store is within reach by the shaft as well, and this is how it is found. -/
theorem lamp_at_bottom :
    (target 11).get? ⟨"Mine"⟩ = some mine ∧ Search.Route (target 11) ⟨"Lamp"⟩ mine [store, mine] ∧
      (∀ v ∈ [store, mine], Search.InReach (target 11) ⟨"Lamp"⟩ mine v) ∧
      (target 11).Shows (Child.nodesAmong store.children) lamp ∧
      (target 11).featurePath? mine ⟨"Lamp"⟩ =
        some ((["shaft"] ++ List.replicate 10 "down" ++ ["store"]).map (fun name => ⟨⟨name⟩, none⟩)) ∧
      ∃ path, (target 11).featurePath? mine ⟨"Lamp"⟩ = some path ∧ Search.Ends (target 11) mine ⟨"Lamp"⟩ path := by
  obtain ⟨hroute, hshows⟩ := route_store 11
  have hmine : (target 11).get? ⟨"Mine"⟩ = some mine := rfl
  have hlamp : (target 11).Knows ⟨"Lamp"⟩ := rfl
  have hreach : ∀ v ∈ [store, mine], Search.InReach (target 11) ⟨"Lamp"⟩ mine v :=
    fun v _ => Search.inReach_of_length hmine (by decide) hlamp (by decide) v
  exact ⟨hmine, hroute, hreach, hshows, rfl, SchemaIndex.featurePath?_complete hmine hroute hreach hshows rfl⟩

/-- **One level more**, and the lamp is overlooked. The way down ends just above the store, which counts as entered
from then on, and so it is passed over at the top. -/
theorem lamp_overlooked :
    (target 12).get? ⟨"Mine"⟩ = some mine ∧ Search.Route (target 12) ⟨"Lamp"⟩ mine [store, mine] ∧
      (target 12).Shows (Child.nodesAmong store.children) lamp ∧ (target 12).featurePath? mine ⟨"Lamp"⟩ = none :=
  ⟨rfl, (route_store 12).1, (route_store 12).2, rfl⟩

end Mines

end FeatureAlignment
