import FeatureAlignment.Proofs.Compilation.Landed
import FeatureAlignment.Proofs.Compilation.Spots
import FeatureAlignment.Proofs.Registry.Unambiguous

/-!
# Places apart

Property cells write to the same attribute if the texts of their places in one type are the same. The text of a path
tells the path, so these are the same places. But the text of a feature is the text of its element, which may be
that of an element inside; and a link field looks like a path whose last segment has a number.

* `PathBound.linkField_iff`: when a path is written like a link field.
* `Environment.WritesTo`: the attribute that a compiled property cell has written.
* `Environment.places_apart`: when two of them write to one attribute, and when one writes to a link field.
-/

namespace FeatureAlignment

variable {env : Environment} {a : Alignment} {c c' : Cell} {table : List Namespace}
  {asked : String → Option String → Prop}

/-! ## Paths and link fields -/

theorem bound_concat {before : List Segment} {last : Segment} {texts : List String}
    (h : List.Forall₂ (fun s t => s.Bound table t) (before ++ [last]) texts) :
    ∃ firsts text, List.Forall₂ (fun s t => s.Bound table t) before firsts ∧ last.Bound table text ∧
      texts = firsts ++ [text] := by
  have hfirsts := List.forall₂_take before.length h
  have hlast := List.forall₂_drop before.length h
  rw [List.take_left] at hfirsts
  rw [List.drop_left] at hlast
  obtain ⟨text, rest, htext, hrest, hdrop⟩ := List.forall₂_cons_left_iff.1 hlast
  rw [List.forall₂_nil_left_iff.1 hrest] at hdrop
  exact ⟨texts.take before.length, text, hfirsts, htext, by rw [← hdrop, List.take_append_drop]⟩

/-- **The number of the last segment** stands at the end of a path. -/
theorem PathBound.concat {before : List Segment} {last : Segment} {text : String}
    (h : PathBound (before ++ [last]) table text) :
    ∃ stem, PathBound (before ++ [⟨last.name, none⟩]) table stem ∧ text = stem ++ Segment.told last.index := by
  obtain ⟨texts, htexts, rfl⟩ := h
  obtain ⟨firsts, written, hfirsts, hwritten, rfl⟩ := bound_concat htexts
  obtain ⟨name, hname, rfl⟩ := Segment.bound_iff.1 hwritten
  refine ⟨Text.join "/" (firsts ++ [name]), ⟨firsts ++ [name], ?_, rfl⟩, Text.join_concat_append ..⟩
  exact List.rel_append hfirsts (.cons ⟨name, hname, rfl⟩ .nil)

/-- There is one text for a path. -/
theorem PathBound.unique (ht : PrefixTable env asked table) {segments : List Segment} {text text' : String}
    (h : PathBound segments table text) (h' : PathBound segments table text') : text = text' := by
  obtain ⟨texts, htexts, rfl⟩ := h
  obtain ⟨texts', htexts', rfl⟩ := h'
  have halike : List.Forall₂ Segment.Alike segments segments := List.forall₂_same.2 fun _ _ => ⟨rfl, rfl, rfl⟩
  rw [bound_unique_of_alike ht halike htexts htexts']

/-- What is in the brackets of a link field. -/
theorem Config.linkField_toList (config : Config) (n : Nat) : (config.linkField n).toList =
    config.linkStem.toList ++ '[' :: ((Text.natural n).toList ++ [']']) := by
  simp [Config.linkField]

/-- **A path without a number at its end** is not written like a link field: the last bracket of a link field stands
behind the last slash. -/
theorem PathBound.ne_linkField (ht : PrefixTable env asked table) {before : List Segment} {name : QName} {text : String}
    (h : PathBound (before ++ [⟨name, none⟩]) table text) (hn : name.Unmarked) (config : Config) (n : Nat) :
    text ≠ config.linkField n := by
  obtain ⟨texts, htexts, rfl⟩ := h
  obtain ⟨firsts, last, -, hlast, rfl⟩ := bound_concat htexts
  obtain ⟨written, hwritten, rfl⟩ := Segment.bound_iff.1 hlast
  rw [Segment.told_none, String.append_empty]
  have hbracket : '[' ∉ written.toList := fun hc => (hwritten.unmarked ht hn _ hc).2 rfl
  have hslash : '/' ∉ (Text.natural n).toList ++ [']'] := by
    have hdigits : '/' ∉ (Text.natural n).toList := fun hc => (Text.natural_unmarked n _ hc).1 rfl
    simp [hdigits]
  obtain ⟨first, hjoin, hfirst⟩ := Text.join_concat "/" firsts written
  intro heq
  have hchars := congrArg String.toList (heq.symm.trans hjoin)
  rw [config.linkField_toList, String.toList_append] at hchars
  -- the last segment stands behind the bracket, and so does the slash before it
  obtain ⟨more, hbehind, hbefore⟩ := Text.behind_of_not_mem hbracket hchars
  rcases hfirst with rfl | ⟨rest, rfl⟩
  · exact absurd hbefore (by simp)
  · rw [String.toList_append] at hbefore
    obtain ⟨more', rfl, -⟩ := Text.behind_of_not_mem (by decide) hbefore.symm
    exact hslash (by rw [hbehind]; simp)

/-- **A path written like a link field**: its last segment has the number of the link, and without that number it is
written like the stem of link fields. -/
theorem PathBound.linkField_iff (ht : PrefixTable env asked table) {segments : List Segment} {text : String}
    (h : PathBound segments table text) (hs : segments ≠ []) (hn : ∀ s ∈ segments, s.name.Unmarked) (config : Config)
    (n : Nat) :
    text = config.linkField n ↔ ∃ before last i, segments = before ++ [last] ∧ last.index = some i ∧
      (i + 1).toNat = n ∧ PathBound (before ++ [⟨last.name, none⟩]) table config.linkStem := by
  constructor
  · rintro rfl
    obtain ⟨before, last, rfl⟩ := (List.eq_nil_or_concat segments).resolve_left hs
    rw [List.concat_eq_append] at h hn ⊢
    cases hi : last.index with
    | none =>
      have hlast : (⟨last.name, none⟩ : Segment) = last := by rw [← hi]
      rw [← hlast] at h
      exact absurd rfl (h.ne_linkField ht (hn last (by simp)) config n)
    | some i =>
      obtain ⟨stem, hstem, heq⟩ := h.concat
      have hchars := congrArg String.toList heq
      rw [hi, Segment.told, config.linkField_toList] at hchars
      simp only [String.toList_append] at hchars
      have hbehind : ∀ m, '[' ∉ (Text.natural m).toList ++ [']'] := by
        intro m
        have hdigits : '[' ∉ (Text.natural m).toList := fun hc => (Text.natural_unmarked m _ hc).2 rfl
        simp [hdigits]
      obtain ⟨hsame, hnumber⟩ := Text.behind_inj (hbehind n) (hbehind (i + 1).toNat)
        (hchars.trans (by simp) : _ = stem.toList ++ '[' :: ((Text.natural (i + 1).toNat).toList ++ [']']))
      rw [← String.toList_inj.1 hsame] at hstem
      rw [List.append_cancel_right_eq] at hnumber
      exact ⟨before, last, i, rfl, hi, (Text.natural_inj (String.toList_inj.1 hnumber)).symm, hstem⟩
  · rintro ⟨before, last, i, rfl, hi, rfl, hstem⟩
    obtain ⟨stem, hstem', rfl⟩ := h.concat
    rw [hstem'.unique ht hstem, hi, Segment.told, Config.linkField]
    simp only [String.append_assoc]

/-- **The segments that tell a place** have names of the schema, and there is at least one. -/
theorem SchemaIndex.addressed_resolve {index : SchemaIndex} {root : QName} {steps : List PathStep}
    {place : ResolvedPath} (hplace : index.resolve root steps = .ok place) :
    index.addressed place ≠ [] ∧ ∀ s ∈ index.addressed place, s.name ∈ index.names := by
  obtain ⟨t, ht⟩ := (leads_resolve hplace).knows_owner.exists_type
  unfold addressed
  by_cases hsegments : place.segments.isEmpty = true
  · rw [if_pos hsegments, ht]
    exact ⟨List.cons_ne_nil _ _, List.forall_mem_singleton.2 (elementName_mem (mem_of_get? ht))⟩
  · rw [if_neg hsegments]
    exact ⟨by simpa using hsegments, (named_resolve hplace).segments⟩

/-- A place that is told by a number at the end has segments: the element of a type has no number. -/
theorem SchemaIndex.addressed_eq_concat {index : SchemaIndex} {place : ResolvedPath} {before : List Segment}
    {last : Segment} {i : UInt64} (hi : last.index = some i) :
    index.addressed place = before ++ [last] ↔ place.segments = before ++ [last] := by
  unfold addressed
  split
  · rename_i hnone
    have hsegments : place.segments ≠ before ++ [last] := by
      rw [List.isEmpty_iff.1 hnone]
      simp
    refine ⟨fun haddressed => ?_, fun h => absurd h hsegments⟩
    have hlast : last ∈ ((index.get? place.owner).map (fun t => (⟨t.elementName, none⟩ : Segment))).toList := by
      rw [haddressed]
      simp
    obtain ⟨t, -, rfl⟩ := Option.map_eq_some_iff.1 (Option.mem_toList.1 hlast)
    cases hi
  · exact Iff.rfl

/-! ## Written attributes -/

namespace Environment

/-- **The attribute that a cell has written**, when some cells have been compiled. Its expression was stored there by
one of them, its target path being resolved to the place; and the place still has this key, and the key an
attribute. -/
structure WritesTo (env : Environment) (a : Alignment) (cells : List Cell) (c : Cell) (place : ResolvedPath)
    (key : String) : Prop where
  lands : ∃ before after target t x, cells = before ++ c :: after ∧
    c.Lands env (env.compileCells a before).registry (env.compileCells a (before ++ [c])).registry target t place key x
  settled : (Cell.ownerKey env place).on (env.compileCells a cells).registry =
    (.ok key, (env.compileCells a cells).registry)
  found : ((env.compileCells a cells).registry.attribute? place.owner key).isSome = true

variable {cells : List Cell} {place place' : ResolvedPath} {key key' : String}

/-- **A property cell that compiles** has written an attribute, unless it is a join. -/
theorem writesTo_compiled (hc : c ∈ env.compiledCells a .start cells)
    (hjoin : Function.ofName? c.function ≠ some .join) (htype : c.isTypeCell = false) :
    ∃ place key, env.WritesTo a cells c place key := by
  obtain ⟨before, after, f, e, typeCell, x, rfl, -, -, hplaced⟩ := compiled_placed hc hjoin htype
  obtain ⟨target, t, place, key, hlands⟩ := Cell.lands_place (sound_compileCells env a before).keyed hplaced
  -- what the cell has written is still there after the other cells
  have hgrows := extends_compileCells env a (before ++ [c]) after
  rw [← List.append_cons] at hgrows
  have hkey := (Cell.naming_ownerKey env place).again hlands.settled hgrows.namespaces
  obtain ⟨y, hy, -⟩ := hgrows.attribute? (sound_compileCells env a (before ++ [c])).toTables
    (sound_compileCells env a (before ++ c :: after)).toTables hlands.found
  exact ⟨place, key, ⟨before, after, target, t, x, rfl, hlands⟩, hkey, by rw [hy]; rfl⟩

/-- The place of a written attribute is where the target path of the cell ends. -/
theorem WritesTo.resolved (h : env.WritesTo a cells c place key) :
    ∃ target, c.targetEntity = .ok target ∧ env.target.resolve target.type target.path = .ok place := by
  obtain ⟨_, _, target, _, _, -, hlands⟩ := h.lands
  exact ⟨target, hlands.targeted, hlands.resolved⟩

/-- The key of a written attribute is how the segments that tell its place are written. -/
theorem WritesTo.pathBound (h : env.WritesTo a cells c place key) :
    PathBound (env.target.addressed place) (env.compileCells a cells).registry.namespaces key :=
  (bound_compileCells env a cells).pathBound (Cell.names_of_ownerKey h.settled)

/-- **Places apart.** If no name of the target schema has marks, each property cell that compiles has written an
attribute, unless it is a join. Two of them have written the same one just when their places are in the same type and
are told by segments that are alike, one by one. And one of them has written a link field of the type just when its
place ends with the number of the link, behind what is written like the stem of link fields. -/
theorem places_apart (env : Environment) (a : Alignment) (cells : List Cell)
    (hn : ∀ n ∈ env.target.names, n.Unmarked) :
    (∀ c ∈ env.compiledCells a .start cells, Function.ofName? c.function ≠ some .join → c.isTypeCell = false →
      ∃ place key, env.WritesTo a cells c place key) ∧
    (∀ c c' place place' key key', env.WritesTo a cells c place key → env.WritesTo a cells c' place' key' →
      (place.owner = place'.owner ∧ key = key' ↔ place.owner = place'.owner ∧
        List.Forall₂ Segment.Alike (env.target.addressed place) (env.target.addressed place'))) ∧
    ∀ c place key, env.WritesTo a cells c place key → ∀ l ∈ (env.compileCells a cells).registry.links,
      (place.owner = l.nested ∧ key = l.linkField ↔ place.owner = l.nested ∧
        ∃ before last i, place.segments = before ++ [last] ∧ last.index = some i ∧
          l.linkField = env.config.linkField (i + 1).toNat ∧
          PathBound (before ++ [⟨last.name, none⟩]) (env.compileCells a cells).registry.namespaces
            env.config.linkStem) := by
  have htable := (bound_compileCells env a cells).table
  refine ⟨fun c hc hjoin htype => writesTo_compiled hc hjoin htype, fun c c' place place' key key' h h' => ?_,
    fun c place key h l hl => and_congr_right fun _ => ?_⟩
  · obtain ⟨_, -, hplace⟩ := h.resolved
    obtain ⟨_, -, hplace'⟩ := h'.resolved
    obtain ⟨hsome, hnames⟩ := SchemaIndex.addressed_resolve hplace
    obtain ⟨hsome', hnames'⟩ := SchemaIndex.addressed_resolve hplace'
    exact and_congr_right fun _ => h.pathBound.alike_iff htable h'.pathBound hsome hsome'
      (fun s hs => hn _ (hnames s hs)) (fun s hs => hn _ (hnames' s hs))
  · obtain ⟨_, -, hplace⟩ := h.resolved
    obtain ⟨hsome, hnames⟩ := SchemaIndex.addressed_resolve hplace
    obtain ⟨-, n, hfield⟩ := (bound_compileCells env a cells).linked l hl
    rw [hfield, h.pathBound.linkField_iff htable hsome (fun s hs => hn _ (hnames s hs))]
    refine exists_congr fun before => exists_congr fun last => exists_congr fun i => ⟨?_, ?_⟩
    · rintro ⟨hsegments, hi, rfl, hstem⟩
      exact ⟨(SchemaIndex.addressed_eq_concat hi).1 hsegments, hi, rfl, hstem⟩
    · rintro ⟨hsegments, hi, hnumber, hstem⟩
      exact ⟨(SchemaIndex.addressed_eq_concat hi).2 hsegments, hi, (Registry.linkField_inj hnumber).symm, hstem⟩

end Environment

/-! ## Ponds with frogs -/

namespace Ponds

/-- An element, of simple content if no type is given. -/
def element (name : String) (type : Option String) : Child :=
  .property ⟨⟨name⟩, type.map QName.mk, false, false⟩

/-- The identifier of features. -/
def gmlId : QName := .qualified QName.gml32 "id"

/-- The tables of ponds and of their frogs. -/
def source : SchemaIndex :=
  ⟨[⟨⟨"PondRow"⟩, none, false, false, [element "id" none, element "name" none, element "depth" none]⟩,
    ⟨⟨"FrogRow"⟩, none, false, false, [element "pond" none, element "voice" none]⟩], .empty⟩

/-- Ponds, in which an element is named like the feature, and frogs, in which one is named like link fields. -/
def target : SchemaIndex :=
  ⟨[⟨⟨"Pond"⟩, none, true, false,
      [.property ⟨gmlId, none, false, true⟩, element "Pond" none, element "depth" none, element "frogs" (some "Frogs")]⟩,
    ⟨⟨"Frogs"⟩, none, false, false, [element "Frog" (some "Frog")]⟩,
    ⟨⟨"Frog"⟩, none, true, false, [.property ⟨⟨"LINK"⟩, none, true, false⟩]⟩], .empty⟩

/-- A property of a type. -/
def property (type : String) (steps : List PathStep) : Entity := ⟨none, ⟨type⟩, steps, none⟩

/-- A step to an element. -/
def step (name : String) : PathStep := ⟨⟨name⟩, none, none⟩

/-- A column goes to a place in the pond. -/
def rename (id type column : String) (steps : List PathStep) : Cell :=
  ⟨id, "rename", [property type [step column]], [property "Pond" steps], .empty⟩

/-- Frogs are joined to their pond. -/
def join : Cell :=
  ⟨"join", "join", [.ofType ⟨"PondRow"⟩, .ofType ⟨"FrogRow"⟩], [.ofType ⟨"Pond"⟩],
    ⟨[("join", [.join ⟨[⟨"PondRow"⟩, ⟨"FrogRow"⟩],
      [⟨property "PondRow" [step "id"], property "FrogRow" [step "pond"]⟩]⟩])]⟩⟩

/-- The identifier of a pond. -/
def key : Cell := rename "key" "PondRow" "id" [⟨gmlId, none, none⟩]

/-- The name of a pond goes to the element that is named like the feature. -/
def name : Cell := rename "name" "PondRow" "name" [step "Pond"]

/-- The depth of a pond. -/
def depth : Cell := rename "depth" "PondRow" "depth" [step "depth"]

/-- The voice of a frog goes to the first of the elements that are named like link fields. -/
def voice : Cell := rename "voice" "FrogRow" "voice" [step "frogs", step "Frog", ⟨⟨"LINK"⟩, some 0, none⟩]

/-- The alignment of ponds and frogs. -/
def alignment : Alignment := ⟨none, [join, key, name, depth, voice]⟩

/-- What compiling it reads. -/
def environment : Environment := alignment.environment source target ⟨.empty, "LINK", none, false, .xml⟩

/-- The registry after compiling it. -/
def final : Registry := (environment.compileCells alignment alignment.cells).registry

/-- All cells compile. -/
theorem compiled_cells : environment.compiledCells alignment .start alignment.cells = alignment.cells := rfl

/-- The type, the segments and the key of the place of a cell. -/
def spot (c : Cell) : Except Failure (QName × List Segment × Except Failure String) := do
  let target ← c.targetEntity
  let place ← environment.target.resolve target.type target.path
  return (place.owner, place.segments, ((Cell.ownerKey environment place).on final).1)

theorem spot_of_writesTo {c : Cell} {place : ResolvedPath} {k : String}
    (h : environment.WritesTo alignment alignment.cells c place k) :
    spot c = .ok (place.owner, place.segments, .ok k) := by
  obtain ⟨target, htarget, hplace⟩ := h.resolved
  have hkey : (Cell.ownerKey environment place).on final = (.ok k, final) := h.settled
  unfold spot
  rw [htarget, Build.except_ok_bind, hplace, Build.except_ok_bind, hkey]
  rfl

/-- **What a renaming cell has written**: the attribute at its spot. -/
theorem writes {c : Cell} (hc : c ∈ alignment.cells) (hrename : c.function = "rename")
    (htype : c.isTypeCell = false) {owner : QName} {segments : List Segment} {k : String}
    (hspot : spot c = .ok (owner, segments, .ok k)) :
    ∃ place, environment.WritesTo alignment alignment.cells c place k ∧ place.owner = owner ∧
      place.segments = segments := by
  rw [← compiled_cells] at hc
  have hjoin : Function.ofName? c.function ≠ some .join := by
    rw [hrename, show Function.ofName? "rename" = some .rename from rfl]
    decide
  obtain ⟨place, k', hwrites⟩ := Environment.writesTo_compiled hc hjoin htype
  have hsame := (spot_of_writesTo hwrites).symm.trans hspot
  cases hsame
  exact ⟨place, hwrites, rfl, rfl⟩

/-- All local parts are NCNames. -/
theorem names_told : ∀ n ∈ environment.target.names, Text.isPrefixName n.localName = true := by decide +kernel

/-- So no name has marks. -/
theorem names_unmarked : ∀ n ∈ environment.target.names, n.Unmarked :=
  fun n hn => QName.unmarked_of_isPrefixName (names_told n hn)

/-- **Name and depth are apart**: their places are told by different segments. -/
theorem depth_apart : (∀ n ∈ environment.target.names, n.Unmarked) ∧
    ∃ place place' k k', environment.WritesTo alignment alignment.cells depth place k ∧
      environment.WritesTo alignment alignment.cells name place' k' ∧ place.owner = place'.owner ∧ k ≠ k' := by
  obtain ⟨place, hdepth, howner, hsegments⟩ := writes (c := depth) (by simp [alignment]) rfl rfl
    (rfl : spot depth = _)
  obtain ⟨place', hname, howner', hsegments'⟩ := writes (c := name) (by simp [alignment]) rfl rfl
    (rfl : spot name = _)
  refine ⟨names_unmarked, place, place', _, _, hdepth, hname, howner.trans howner'.symm, fun hkeys => ?_⟩
  have hapart := (Environment.places_apart environment alignment alignment.cells names_unmarked).2.1
  obtain ⟨-, halike⟩ := (hapart _ _ _ _ _ _ hdepth hname).1 ⟨howner.trans howner'.symm, hkeys⟩
  simp only [SchemaIndex.addressed, hsegments, hsegments'] at halike
  obtain ⟨hfirst, -⟩ := List.forall₂_cons.1 halike
  exact absurd hfirst.2.1 (by decide)

/-- **Different places, one attribute.** The identifier of the pond and the element inside that is named like the pond
share an attribute; and the voice of a frog is in the link field of frogs. -/
theorem places_shared : (∀ n ∈ environment.target.names, Text.isPrefixName n.localName = true) ∧
    environment.compiledCells alignment .start alignment.cells = [join, key, name, depth, voice] ∧
    (∃ place place' k, environment.WritesTo alignment alignment.cells key place k ∧
      environment.WritesTo alignment alignment.cells name place' k ∧ place.owner = place'.owner ∧
      place.segments = [] ∧ place'.segments = [⟨⟨"Pond"⟩, none⟩]) ∧
    ∃ place, ∃ l ∈ final.links, l.nested = place.owner ∧
      environment.WritesTo alignment alignment.cells voice place l.linkField := by
  obtain ⟨place, hkey, howner, hsegments⟩ := writes (c := key) (by simp [alignment]) rfl rfl
    (rfl : spot key = .ok (⟨"Pond"⟩, [], .ok "Pond"))
  obtain ⟨place', hname, howner', hsegments'⟩ := writes (c := name) (by simp [alignment]) rfl rfl
    (rfl : spot name = .ok (⟨"Pond"⟩, [⟨⟨"Pond"⟩, none⟩], .ok "Pond"))
  obtain ⟨nested, hvoice, hnested, -⟩ := writes (c := voice) (by simp [alignment]) rfl rfl
    (rfl : spot voice = .ok (⟨"Frog"⟩, [⟨⟨"LINK"⟩, some 0⟩], .ok "LINK[1]"))
  have hlinks : final.links = [⟨⟨"Pond"⟩, ⟨"Frog"⟩, "Frog", "LINK[1]"⟩] := rfl
  refine ⟨names_told, compiled_cells, ⟨place, place', "Pond", hkey, hname, howner.trans howner'.symm, hsegments, hsegments'⟩,
    nested, ⟨⟨"Pond"⟩, ⟨"Frog"⟩, "Frog", "LINK[1]"⟩, ?_, hnested.symm, hvoice⟩
  rw [hlinks]
  exact List.mem_singleton_self _

end Ponds

end FeatureAlignment
