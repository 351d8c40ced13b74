import FeatureAlignment.Path.Resolution
import Mathlib.Data.List.Nodup

/-!
# The nodes of a type

A type has its children, the children of its groups, and so on. Groups leave no trace in instances,
so a name among all these nodes names a child as long as no other one has the same local name.

* `Child.nodesAmong`: children with all that is inside their groups.
* `Child.sitesAmong`: the same, each node with the groups around it.
* `Child.locate?_site`, `Child.locate?_some`: a step looks among the nodes, and finds each name that
  is there.
* `Child.Distinct`: children whose nodes have pairwise distinct local names. There a name finds the
  node for which it stands (`Distinct.locate?_eq`).
-/

namespace FeatureAlignment

namespace Child

variable {children inner : List Child} {c : Child} {name : QName} {found : Located}

mutual

/-- A child with all that is inside it, if it is a group. -/
def nodes : Child → List Child
  | .property p => [.property p]
  | .group header children => .group header children :: nodesAmong children

/-- **The nodes among children**: the children with all that is inside their groups. -/
def nodesAmong : List Child → List Child
  | [] => []
  | c :: cs => nodes c ++ nodesAmong cs

end

theorem nodesAmong_cons (c : Child) (cs : List Child) : nodesAmong (c :: cs) = nodes c ++ nodesAmong cs := rfl

theorem mem_nodes_self (c : Child) : c ∈ nodes c := by
  cases c with
  | property p => simp [nodes]
  | group header children => simp [nodes]

mutual

theorem nodesAmong_sublist_nodes {header : GroupHeader} : ∀ d : Child,
    .group header inner ∈ nodes d → (nodesAmong inner).Sublist (nodes d)
  | .property p, h => by simp [nodes] at h
  | .group header' children, h => by
    unfold nodes at h ⊢
    rcases List.mem_cons.1 h with heq | h
    · cases heq
      exact List.sublist_cons_self _ _
    · exact (nodesAmong_sublist children h).cons _

/-- **What is inside a group among the nodes is among them**, in order. -/
theorem nodesAmong_sublist {header : GroupHeader} : ∀ children : List Child,
    .group header inner ∈ nodesAmong children → (nodesAmong inner).Sublist (nodesAmong children)
  | [], h => by simp [nodesAmong] at h
  | d :: ds, h => by
    rw [nodesAmong_cons] at h ⊢
    rcases List.mem_append.1 h with h | h
    · exact (nodesAmong_sublist_nodes d h).trans (List.sublist_append_left _ _)
    · exact (nodesAmong_sublist ds h).trans (List.sublist_append_right _ _)

end

theorem nodesAmong_subset {header : GroupHeader} (children : List Child)
    (h : .group header inner ∈ nodesAmong children) : nodesAmong inner ⊆ nodesAmong children :=
  (nodesAmong_sublist children h).subset

/-! ## What a step finds -/

/-- **A child that a name stands for**: it has this name, or this local name if the name has no namespace. -/
def Answers (name : QName) (c : Child) : Prop :=
  c.name = name ∨ (name.isQualified = false ∧ c.name.localName = name.localName)

theorem Answers.localName (h : c.Answers name) : c.name.localName = name.localName := by
  rcases h with rfl | ⟨-, h⟩
  · rfl
  · exact h

theorem find?_some (h : find? children name = some c) : c ∈ children ∧ c.Answers name := by
  unfold find? at h
  split at h
  · rename_i c' hc
    cases h
    exact ⟨List.mem_of_find?_eq_some hc, .inl (by simpa using List.find?_some hc)⟩
  · split at h
    · cases h
    · rename_i hname
      exact ⟨List.mem_of_find?_eq_some h, .inr ⟨by simpa using hname, by simpa using List.find?_some h⟩⟩

theorem find?_isSome (h : c ∈ children) (ha : c.Answers name) : (find? children name).isSome := by
  unfold find?
  cases hfound : children.find? (fun d => d.name = name) with
  | some d => rfl
  | none =>
    rcases ha with ha | ⟨hname, ha⟩
    · exact absurd ha (by simpa using List.find?_eq_none.1 hfound c h)
    · rw [hname]
      exact List.find?_isSome.2 ⟨c, h, by simpa using ha⟩

mutual

theorem locateIn?_isSome (ha : c.Answers name) : ∀ d : Child, c ∈ nodes d → c = d ∨ (locateIn? name d).isSome
  | .property p, h => by
    unfold nodes at h
    exact Or.inl (List.mem_singleton.1 h)
  | .group header children, h => by
    unfold nodes at h
    rcases List.mem_cons.1 h with h | h
    · exact Or.inl h
    · refine Or.inr ?_
      unfold locateIn?
      rw [Option.isSome_map]
      rcases locateAmong?_isSome ha children h with h | h
      · obtain ⟨d, hd⟩ := Option.isSome_iff_exists.1 (find?_isSome h ha)
        rw [hd]
        rfl
      · cases find? children name with
        | some d => rfl
        | none => exact h

theorem locateAmong?_isSome (ha : c.Answers name) : ∀ ds : List Child, c ∈ nodesAmong ds →
    c ∈ ds ∨ (locateAmong? name ds).isSome
  | [], h => by simp [nodesAmong] at h
  | d :: ds, h => by
    rw [nodesAmong_cons] at h
    unfold locateAmong?
    rcases List.mem_append.1 h with h | h
    · rcases locateIn?_isSome ha d h with rfl | h
      · exact Or.inl List.mem_cons_self
      · obtain ⟨found, hfound⟩ := Option.isSome_iff_exists.1 h
        rw [hfound]
        exact Or.inr rfl
    · rcases locateAmong?_isSome ha ds h with h | h
      · exact Or.inl (List.mem_cons_of_mem _ h)
      · refine Or.inr ?_
        cases locateIn? name d with
        | some found => rfl
        | none => exact h

end

/-- **A name that stands for a node is found.** -/
theorem locate?_some (h : c ∈ nodesAmong children) (ha : c.Answers name) :
    ∃ found, locate? children name = some found := by
  unfold locate?
  cases hf : find? children name with
  | some d => exact ⟨_, rfl⟩
  | none =>
    rcases locateAmong?_isSome ha children h with h | h
    · have := find?_isSome h ha
      rw [hf] at this
      cases this
    · exact Option.isSome_iff_exists.1 h

/-! ## Groups around a node -/

mutual

/-- A child with all that is inside it, each with the groups around, the outermost first. -/
def sites : Child → List (Child × List GroupHeader)
  | .property p => [(.property p, [])]
  | .group header children =>
    (.group header children, []) :: (sitesAmong children).map (fun x => (x.1, header :: x.2))

/-- **The nodes among children, each with the groups around it**, the outermost first. -/
def sitesAmong : List Child → List (Child × List GroupHeader)
  | [] => []
  | c :: cs => sites c ++ sitesAmong cs

end

theorem sitesAmong_cons (c : Child) (cs : List Child) : sitesAmong (c :: cs) = sites c ++ sitesAmong cs := rfl

mutual

theorem sites_fst : ∀ d : Child, (sites d).map Prod.fst = nodes d
  | .property p => rfl
  | .group header children => by
    unfold sites nodes
    rw [List.map_cons, List.map_map, ← sitesAmong_fst children]
    rfl

/-- The sites are those of the nodes. -/
theorem sitesAmong_fst : ∀ ds : List Child, (sitesAmong ds).map Prod.fst = nodesAmong ds
  | [] => rfl
  | d :: ds => by rw [sitesAmong_cons, nodesAmong_cons, List.map_append, sites_fst d, sitesAmong_fst ds]

end

theorem site_node {headers : List GroupHeader} (h : (c, headers) ∈ sitesAmong children) :
    c ∈ nodesAmong children := by
  rw [← sitesAmong_fst]
  exact List.mem_map.2 ⟨_, h, rfl⟩

mutual

theorem sites_header {c : Child} {headers : List GroupHeader} : ∀ d : Child, (c, headers) ∈ sites d →
    ∀ header ∈ headers, ∃ inner, .group header inner ∈ nodes d
  | .property p, h => by
    unfold sites at h
    cases List.mem_singleton.1 h
    exact fun header hheader => (List.not_mem_nil hheader).elim
  | .group outer children, h => by
    unfold sites at h
    unfold nodes
    intro header hheader
    rcases List.mem_cons.1 h with heq | h
    · cases heq
      cases hheader
    · obtain ⟨⟨d, hs⟩, hmem, heq⟩ := List.mem_map.1 h
      cases heq
      rcases List.mem_cons.1 hheader with rfl | hheader
      · exact ⟨children, List.mem_cons_self⟩
      · obtain ⟨inner, hinner⟩ := site_header children hmem header hheader
        exact ⟨inner, List.mem_cons_of_mem _ hinner⟩

/-- **The groups around a node** are nodes themselves. -/
theorem site_header {c : Child} {headers : List GroupHeader} : ∀ children : List Child,
    (c, headers) ∈ sitesAmong children → ∀ header ∈ headers, ∃ inner, .group header inner ∈ nodesAmong children
  | [], h => by simp [sitesAmong] at h
  | d :: ds, h => by
    rw [sitesAmong_cons] at h
    rw [nodesAmong_cons]
    intro header hheader
    rcases List.mem_append.1 h with h | h
    · obtain ⟨inner, hinner⟩ := sites_header d h header hheader
      exact ⟨inner, List.mem_append_left _ hinner⟩
    · obtain ⟨inner, hinner⟩ := site_header ds h header hheader
      exact ⟨inner, List.mem_append_right _ hinner⟩

end

/-- A child is in no group. -/
theorem site_direct (h : c ∈ children) : (c, []) ∈ sitesAmong children := by
  induction children with
  | nil => cases h
  | cons d ds ih =>
    rw [sitesAmong_cons]
    rcases List.mem_cons.1 h with rfl | h
    · refine List.mem_append_left _ ?_
      cases c <;> simp [sites]
    · exact List.mem_append_right _ (ih h)

mutual

theorem sites_inside {header : GroupHeader} {outer headers : List GroupHeader} : ∀ d : Child,
    (.group header inner, outer) ∈ sites d → (c, headers) ∈ sitesAmong inner →
      (c, outer ++ header :: headers) ∈ sites d
  | .property p, h, _ => by simp [sites] at h
  | .group header' children, h, hc => by
    unfold sites at h ⊢
    rcases List.mem_cons.1 h with heq | h
    · cases heq
      exact List.mem_cons_of_mem _ (List.mem_map.2 ⟨_, hc, rfl⟩)
    · obtain ⟨⟨d, hs⟩, hmem, heq⟩ := List.mem_map.1 h
      cases heq
      exact List.mem_cons_of_mem _ (List.mem_map.2 ⟨_, site_inside children hmem hc, rfl⟩)

/-- **A node inside a group** is in the groups around it and in those around the group. -/
theorem site_inside {header : GroupHeader} {outer headers : List GroupHeader} : ∀ children : List Child,
    (.group header inner, outer) ∈ sitesAmong children → (c, headers) ∈ sitesAmong inner →
      (c, outer ++ header :: headers) ∈ sitesAmong children
  | [], h, _ => by simp [sitesAmong] at h
  | d :: ds, h, hc => by
    rw [sitesAmong_cons] at h ⊢
    rcases List.mem_append.1 h with h | h
    · exact List.mem_append_left _ (sites_inside d h hc)
    · exact List.mem_append_right _ (site_inside ds h hc)

end

end Child

namespace GroupHeader

/-- **The innermost head** of groups, the outermost of which comes first. -/
def innermostHead? (headers : List GroupHeader) : Option QName :=
  headers.foldr (fun header inner => inner.or header.substitutionHead) none

theorem innermostHead?_cons (header : GroupHeader) (headers : List GroupHeader) :
    innermostHead? (header :: headers) = (innermostHead? headers).or header.substitutionHead := rfl

theorem innermostHead?_append (outer inner : List GroupHeader) :
    innermostHead? (outer ++ inner) = (innermostHead? inner).or (innermostHead? outer) := by
  induction outer with
  | nil => simp [innermostHead?]
  | cons header outer ih =>
    rw [List.cons_append, innermostHead?_cons, innermostHead?_cons, ih, Option.or_assoc]

/-- The innermost head is that of some group. -/
theorem innermostHead?_some {headers : List GroupHeader} {name : QName} (h : name ∈ innermostHead? headers) :
    ∃ header ∈ headers, name ∈ header.substitutionHead := by
  induction headers with
  | nil => cases h
  | cons header headers ih =>
    rw [innermostHead?_cons] at h
    rcases Option.or_eq_some_iff.1 h with h | ⟨-, h⟩
    · obtain ⟨header', hmem, hhead⟩ := ih h
      exact ⟨header', List.mem_cons_of_mem _ hmem, hhead⟩
    · exact ⟨header, List.mem_cons_self, h⟩

end GroupHeader

namespace Located

/-- **A child found inside groups**, the outermost of which comes first. -/
def within (headers : List GroupHeader) (c : Child) : Located :=
  ⟨c, GroupHeader.innermostHead? headers, headers.any GroupHeader.repeatable⟩

theorem inside_within (header : GroupHeader) (headers : List GroupHeader) (c : Child) :
    inside header (within headers c) = within (header :: headers) c := by
  unfold inside within
  rw [List.any_cons, Bool.or_comm]
  rfl

end Located

namespace Child

variable {children inner : List Child} {c : Child} {name : QName} {found : Located}

mutual

theorem locateIn?_site : ∀ (d : Child) {found : Located}, locateIn? name d = some found →
    ∃ headers, (found.child, headers) ∈ sites d ∧ found = .within headers found.child ∧ found.child.Answers name
  | .property p, _, h => by simp [locateIn?] at h
  | .group header children, _, h => by
    unfold locateIn? at h
    unfold sites
    obtain ⟨found', hfound, rfl⟩ := Option.map_eq_some_iff.1 h
    -- whatever is found among the children has the group around it as well
    have houter : (∃ headers, (found'.child, headers) ∈ sitesAmong children ∧
        found' = .within headers found'.child ∧ found'.child.Answers name) →
        ∃ headers, (found'.child, headers) ∈ (.group header children, []) ::
          (sitesAmong children).map (fun x => (x.1, header :: x.2)) ∧
          Located.inside header found' = .within headers found'.child ∧ found'.child.Answers name := by
      rintro ⟨headers, hmem, heq, hanswers⟩
      refine ⟨header :: headers, List.mem_cons_of_mem _ (List.mem_map.2 ⟨_, hmem, rfl⟩), ?_, hanswers⟩
      rw [← Located.inside_within, ← heq]
    split at hfound
    · rename_i c hc
      cases hfound
      obtain ⟨hmem, hanswers⟩ := find?_some hc
      exact houter ⟨[], site_direct hmem, rfl, hanswers⟩
    · exact houter (locateAmong?_site children hfound)

theorem locateAmong?_site : ∀ (ds : List Child) {found : Located}, locateAmong? name ds = some found →
    ∃ headers, (found.child, headers) ∈ sitesAmong ds ∧ found = .within headers found.child ∧
      found.child.Answers name
  | [], _, h => by simp [locateAmong?] at h
  | d :: ds, _, h => by
    unfold locateAmong? at h
    rw [sitesAmong_cons]
    split at h
    · rename_i found' hd
      cases h
      obtain ⟨headers, hmem, hwithin⟩ := locateIn?_site d hd
      exact ⟨headers, List.mem_append_left _ hmem, hwithin⟩
    · obtain ⟨headers, hmem, hwithin⟩ := locateAmong?_site ds h
      exact ⟨headers, List.mem_append_right _ hmem, hwithin⟩

end

/-- **A step finds a node** for which its name stands, with what is noted of the groups around it. -/
theorem locate?_site (h : locate? children name = some found) :
    ∃ headers, (found.child, headers) ∈ sitesAmong children ∧ found = .within headers found.child ∧
      found.child.Answers name := by
  unfold locate? at h
  split at h
  · rename_i c hc
    cases h
    obtain ⟨hmem, hanswers⟩ := find?_some hc
    exact ⟨[], site_direct hmem, rfl, hanswers⟩
  · exact locateAmong?_site children h

/-- A step finds a node with the local name that it gives. -/
theorem locate?_node (h : locate? children name = some found) :
    found.child ∈ nodesAmong children ∧ found.child.name.localName = name.localName := by
  obtain ⟨headers, hsite, -, hanswers⟩ := locate?_site h
  exact ⟨site_node hsite, hanswers.localName⟩

/-! ## Distinct names -/

/-- **Children that a name tells apart**: the local names of all nodes are pairwise distinct. -/
def Distinct (children : List Child) : Prop :=
  ((nodesAmong children).map (fun c => c.name.localName)).Nodup

instance : Decidable (Distinct children) := inferInstanceAs (Decidable (List.Nodup _))

/-- Names tell the nodes of a group apart as well. -/
theorem Distinct.inside (hd : Distinct children) {header : GroupHeader}
    (h : .group header inner ∈ nodesAmong children) : Distinct inner :=
  hd.sublist ((nodesAmong_sublist children h).map _)

/-- Where names tell nodes apart, a local name tells a node and the groups around it. -/
theorem Distinct.site_inj (hd : Distinct children) {x y : Child × List GroupHeader} (hx : x ∈ sitesAmong children)
    (hy : y ∈ sitesAmong children) (h : x.1.name.localName = y.1.name.localName) : x = y := by
  unfold Distinct at hd
  rw [← sitesAmong_fst, List.map_map] at hd
  exact List.inj_on_of_nodup_map hd hx hy h

/-- **A name finds the node for which it stands**, where names tell nodes apart. -/
theorem Distinct.locate?_eq (hd : Distinct children) {headers : List GroupHeader}
    (h : (c, headers) ∈ sitesAmong children) (ha : c.Answers name) :
    Child.locate? children name = some (.within headers c) := by
  obtain ⟨found, hfound⟩ := locate?_some (site_node h) ha
  obtain ⟨headers', hsite, hwithin, hanswers⟩ := locate?_site hfound
  have hsame := hd.site_inj hsite h (hanswers.localName.trans ha.localName.symm)
  cases hsame
  exact hfound.trans (congrArg some hwithin)

/-- A node is found by its own name. -/
theorem Distinct.locate? (hd : Distinct children) (h : c ∈ nodesAmong children) :
    ∃ found, Child.locate? children c.name = some found ∧ found.child = c := by
  rw [← sitesAmong_fst] at h
  obtain ⟨⟨c', headers⟩, hsite, rfl⟩ := List.mem_map.1 h
  exact ⟨_, hd.locate?_eq hsite (.inl rfl), rfl⟩

end Child

end FeatureAlignment
