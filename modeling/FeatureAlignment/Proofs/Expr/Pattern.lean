import FeatureAlignment.Expr.Pattern
import FeatureAlignment.Proofs.Build
import FeatureAlignment.Proofs.Expr.Value
import FeatureAlignment.Proofs.Text

/-!
# Patterns fill their placeholders

A pattern text is scanned from left to right. Where a placeholder starts, it is taken, and otherwise one character
stays. So a text has exactly one list of pieces, and it is made of them. Fragments put neighbouring characters
together, and composing them loses and adds nothing.

* `Pattern.Hole`: a placeholder at the start of a text, apart from how it is looked for.
* `Pattern.Scans`: the pieces of a text; there are some (`exists_scans`) and no others (`Scans.unique`), and they
  make up the text (`Scans.whole`).
* `Scans.parse`: the fragments are those of the pieces.
* `Pattern.compose_eq`: composing fails with the first placeholder that is not bound, and otherwise concatenates.
* `Pattern.value_concatAll`, `Pattern.leftNested_concatAll`: the value and the form of a concatenation.
-/

namespace FeatureAlignment

namespace Pattern

/-! ## Pieces -/

/-- **A placeholder at the start of a text**: a brace pair around a nonempty run without braces, and what follows. -/
structure Hole (cs inner rest : List Char) : Prop where
  text : cs = '\x7b' :: (inner ++ '\x7d' :: rest)
  nonempty : inner ≠ []
  free : ∀ c ∈ inner, c ≠ '\x7b' ∧ c ≠ '\x7d'

variable {cs inner rest pending : List Char}

/-- **A placeholder is found** where there is one. -/
theorem placeholder?_eq_some : placeholder? cs = some (inner, rest) ↔ Hole cs inner rest := by
  unfold placeholder?
  constructor
  · intro h
    split at h
    case h_1 cs =>
      dsimp only at h
      split at h
      case h_1 c name more htake hdrop =>
        cases h
        refine ⟨?_, List.cons_ne_nil _ _, fun d hd => ?_⟩
        · rw [← htake, ← hdrop, List.takeWhile_append_dropWhile]
        · rw [← htake] at hd
          simpa using List.all_eq_true.1 List.all_takeWhile d hd
      case h_2 => cases h
    case h_2 => cases h
  · rintro ⟨rfl, hne, hfree⟩
    obtain ⟨c, name, rfl⟩ := List.exists_cons_of_ne_nil hne
    have hall : ∀ d ∈ c :: name, (d ≠ '\x7b' && d ≠ '\x7d') = true := by
      intro d hd
      simpa using hfree d hd
    have hstops : Text.Stops (fun d => d ≠ '\x7b' && d ≠ '\x7d') ('\x7d' :: rest) := by
      intro d hd
      cases hd
      rfl
    simp only [Text.takeWhile_span hall hstops, Text.dropWhile_span hall hstops]

theorem placeholder?_eq_none : placeholder? cs = none ↔ ∀ inner rest, ¬ Hole cs inner rest := by
  rw [Option.eq_none_iff_forall_ne_some]
  constructor
  · exact fun h inner rest hhole => h _ (placeholder?_eq_some.2 hhole)
  · exact fun h found hfound => h found.1 found.2 (placeholder?_eq_some.1 hfound)

/-- A placeholder is told by the text. -/
theorem Hole.unique {inner' rest' : List Char} (h : Hole cs inner rest) (h' : Hole cs inner' rest') :
    inner = inner' ∧ rest = rest' := by
  have hboth := (placeholder?_eq_some.2 h).symm.trans (placeholder?_eq_some.2 h')
  cases hboth
  exact ⟨rfl, rfl⟩

theorem Hole.length_lt (h : Hole cs inner rest) : rest.length < cs.length := by
  rw [h.text, List.length_cons, List.length_append, List.length_cons]
  omega

/-- **A piece of a pattern text**: a character that stays, or a placeholder with what is between its braces. -/
inductive Piece
  | char (c : Char)
  | hole (inner : List Char)
  deriving DecidableEq, Repr

namespace Piece

/-- The characters of a piece in the pattern. -/
def source : Piece → List Char
  | .char c => [c]
  | .hole inner => '\x7b' :: (inner ++ ['\x7d'])

/-- The name in a placeholder, trimmed. -/
def name? : Piece → Option String
  | .char _ => none
  | .hole inner => some (String.ofList (Text.trimList inner))

/-- What a piece comes to: its character, or what is put for its name. -/
def filled (put : String → String) : Piece → String
  | .char c => String.singleton c
  | .hole inner => put (String.ofList (Text.trimList inner))

end Piece

/-- **The pieces of a text**, from left to right without overlap. -/
inductive Scans : List Char → List Piece → Prop
  | nil : Scans [] []
  | hole {cs inner rest pieces} (h : Hole cs inner rest) (more : Scans rest pieces) :
      Scans cs (.hole inner :: pieces)
  | char {c cs pieces} (h : ∀ inner rest, ¬ Hole (c :: cs) inner rest) (more : Scans cs pieces) :
      Scans (c :: cs) (.char c :: pieces)

variable {pieces : List Piece}

/-- **Every text has pieces.** -/
theorem exists_scans (cs : List Char) : ∃ pieces, Scans cs pieces := by
  have hbounded : ∀ n (cs : List Char), cs.length ≤ n → ∃ pieces, Scans cs pieces := by
    intro n
    induction n with
    | zero =>
      intro cs hlength
      rw [List.length_eq_zero_iff.1 (Nat.le_zero.1 hlength)]
      exact ⟨[], .nil⟩
    | succ n ih =>
      intro cs hlength
      cases hfound : placeholder? cs with
      | some found =>
        have hhole : Hole cs found.1 found.2 := placeholder?_eq_some.1 hfound
        have hshorter := hhole.length_lt
        obtain ⟨pieces, hpieces⟩ := ih found.2 (by omega)
        exact ⟨_, .hole hhole hpieces⟩
      | none =>
        cases cs with
        | nil => exact ⟨[], .nil⟩
        | cons c cs =>
          obtain ⟨pieces, hpieces⟩ := ih cs (Nat.le_of_succ_le_succ hlength)
          exact ⟨_, .char (placeholder?_eq_none.1 hfound) hpieces⟩
  exact hbounded cs.length cs (Nat.le_refl _)

namespace Scans

/-- **A text has one list of pieces only.** -/
theorem unique {others : List Piece} (h : Scans cs pieces) (h' : Scans cs others) : others = pieces := by
  induction h generalizing others with
  | nil =>
    cases h' with
    | nil => rfl
    | hole hhole more => cases hhole.text
  | hole hhole more ih =>
    cases h' with
    | nil => cases hhole.text
    | hole hother more' =>
      obtain ⟨rfl, rfl⟩ := hhole.unique hother
      rw [ih more']
    | char hno more' => exact absurd hhole (hno _ _)
  | char hno more ih =>
    cases h' with
    | hole hother more' => exact absurd hother (hno _ _)
    | char hno' more' => rw [ih more']

/-- **Pieces make up the text**: each character is in one of them, in order. -/
theorem whole (h : Scans cs pieces) : pieces.flatMap Piece.source = cs := by
  induction h with
  | nil => rfl
  | hole hhole more ih => simp [Piece.source, ih, hhole.text]
  | char hno more ih => rw [List.flatMap_cons, ih, Piece.source, List.singleton_append]

end Scans

/-! ## Fragments -/

/-- **The fragments of pieces**, with the text since the last placeholder in reverse. -/
def fragmentsOf (pending : List Char) : List Piece → List Fragment
  | [] => literal pending
  | .char c :: pieces => fragmentsOf (c :: pending) pieces
  | .hole inner :: pieces =>
    literal pending ++ .variable (String.ofList (Text.trimList inner)) :: fragmentsOf [] pieces

/-- **Cutting follows the pieces**, if the bound is high enough. -/
theorem Scans.cut (h : Scans cs pieces) {fuel : Nat} (hfuel : cs.length ≤ fuel) :
    Pattern.cut fuel pending cs = fragmentsOf pending pieces := by
  induction h generalizing fuel pending with
  | nil => cases fuel <;> rfl
  | hole hhole more ih =>
    -- one is taken from the bound, and more than one character from the text
    have hshorter := hhole.length_lt
    have hfound := placeholder?_eq_some.2 hhole
    obtain ⟨fuel, rfl⟩ : ∃ n, fuel = n + 1 := ⟨fuel - 1, by omega⟩
    rw [hhole.text] at hfound ⊢
    rw [Pattern.cut, hfound]
    show literal pending ++ _ :: Pattern.cut fuel [] _ = _
    rw [ih (by omega), fragmentsOf]
  | char hno more ih =>
    obtain ⟨fuel, rfl⟩ : ∃ n, fuel = n + 1 := ⟨fuel - 1, by simp at hfuel; omega⟩
    rw [Pattern.cut, placeholder?_eq_none.2 hno]
    exact ih (Nat.le_of_succ_le_succ hfuel)

/-- **The fragments of a pattern are those of its pieces.** -/
theorem Scans.parse {s : String} (h : Scans s.toList pieces) : (parse s).fragments = fragmentsOf [] pieces :=
  h.cut (Nat.le_refl _)

/-- The names of the placeholders of fragments are those of the pieces. -/
theorem placeholders_fragmentsOf (pending : List Char) (pieces : List Piece) :
    (mk (fragmentsOf pending pieces)).placeholders = pieces.filterMap Piece.name? := by
  have hliteral : ∀ pending more, (mk (literal pending ++ more)).placeholders = (mk more).placeholders := by
    intro pending more
    cases pending <;> rfl
  induction pieces generalizing pending with
  | nil =>
    have hlast := hliteral pending []
    rw [List.append_nil] at hlast
    exact hlast
  | cons p pieces ih =>
    cases p with
    | char c => exact ih (c :: pending)
    | hole inner =>
      rw [fragmentsOf, hliteral]
      show _ :: (mk (fragmentsOf [] pieces)).placeholders = _
      rw [ih]
      rfl

/-- What a fragment comes to: its text, or what is put for its name. -/
def filled (put : String → String) : Fragment → String
  | .literal text => text
  | .variable name => put name

/-- **Fragments come to what the pieces come to.** -/
theorem concat_fragmentsOf (put : String → String) (pending : List Char) (pieces : List Piece) :
    Text.concat ((fragmentsOf pending pieces).map (filled put)) =
      String.ofList pending.reverse ++ Text.concat (pieces.map (Piece.filled put)) := by
  have hliteral : ∀ pending more, Text.concat ((literal pending ++ more).map (filled put)) =
      String.ofList pending.reverse ++ Text.concat (more.map (filled put)) := by
    intro pending more
    cases pending with
    | nil => exact String.empty_append.symm
    | cons c pending => rfl
  induction pieces generalizing pending with
  | nil =>
    have hlast := hliteral pending []
    rw [List.append_nil] at hlast
    exact hlast
  | cons p pieces ih =>
    cases p with
    | char c =>
      rw [fragmentsOf, ih, List.reverse_cons, String.ofList_append, String.append_assoc]
      rfl
    | hole inner =>
      rw [fragmentsOf, hliteral, List.map_cons, Text.concat, ih]
      show _ ++ (_ ++ ("" ++ _)) = _
      rw [String.empty_append]
      rfl

/-! ## Composition -/

/-- The expression of a fragment whose name is bound. -/
def bound (bind : String → Option Expr) : Fragment → Expr
  | .literal text => .text text
  | .variable name => (bind name).getD .nil

/-- **Composing fails with the first placeholder that is not bound**, and otherwise concatenates the fragments. -/
theorem compose_eq (p : Pattern) (function : String) (bind : String → Option Expr) :
    p.compose function bind = (p.placeholders.find? fun name => (bind name).isNone).elim
      (.ok (concatAll (p.fragments.map (bound bind))))
      fun name => .error (.invalidParameter function "pattern" (.unboundPlaceholder name)) := by
  have hpieces : ∀ fragments : List Fragment, fragments.mapM (piece function bind) =
      ((mk fragments).placeholders.find? fun name => (bind name).isNone).elim (.ok (fragments.map (bound bind)))
        fun name => .error (.invalidParameter function "pattern" (.unboundPlaceholder name)) := by
    intro fragments
    induction fragments with
    | nil => rfl
    | cons f fragments ih =>
      rw [List.mapM_cons, ih]
      cases f with
      | literal text =>
        show _ = ((mk fragments).placeholders.find? _).elim _ _
        cases (mk fragments).placeholders.find? fun name => (bind name).isNone <;> rfl
      | «variable» name =>
        show _ = ((name :: (mk fragments).placeholders).find? _).elim _ _
        rw [List.find?_cons, piece]
        cases hname : bind name with
        | none => rfl
        | some e =>
          cases (mk fragments).placeholders.find? fun name => (bind name).isNone with
          | some name => rfl
          | none => simp [Build.except_ok_bind, bound, hname, pure, Except.pure]
  rw [compose, hpieces]
  cases p.placeholders.find? fun name => (bind name).isNone <;> rfl

/-- **An atom**: a text or a property. -/
inductive Atom : Expr → Prop
  | text (s : String) : Atom (.text s)
  | property (name : String) : Atom (.property name)

/-- **Nested to the left**: an atom, or an atom behind what is nested to the left. -/
inductive LeftNested : Expr → Prop
  | atom {e} (h : Atom e) : LeftNested e
  | concat {left right} (hleft : LeftNested left) (hright : Atom right) : LeftNested (.concat left right)

/-- **Concatenations are nested to the left.** -/
theorem leftNested_concatAll {es : List Expr} (h : ∀ e ∈ es, Atom e) : LeftNested (concatAll es) := by
  have hfold : ∀ (es : List Expr) (left : Expr), LeftNested left → (∀ e ∈ es, Atom e) →
      LeftNested (es.foldl Expr.concat left) := by
    intro es
    induction es with
    | nil => exact fun left hleft _ => hleft
    | cons e es ih =>
      intro left hleft h
      rw [List.forall_mem_cons] at h
      exact ih _ (.concat hleft h.1) h.2
  cases es with
  | nil => exact .atom (.text "")
  | cons e es =>
    rw [List.forall_mem_cons] at h
    exact hfold es e (.atom h.1) h.2

/-- **The value of a concatenation** of texts. -/
theorem value_concatAll {α : Type} {record : String → Expr.Value} {f : α → Expr} {g : α → String} {xs : List α}
    (h : ∀ x ∈ xs, (f x).value record = .text (g x)) :
    (concatAll (xs.map f)).value record = .text (Text.concat (xs.map g)) := by
  have hfold : ∀ (xs : List α) (left : Expr) (s : String), left.value record = .text s →
      (∀ x ∈ xs, (f x).value record = .text (g x)) →
      ((xs.map f).foldl Expr.concat left).value record = .text (s ++ Text.concat (xs.map g)) := by
    intro xs
    induction xs with
    | nil =>
      intro left s hleft _
      rw [List.map_nil, List.map_nil, Text.concat, String.append_empty]
      exact hleft
    | cons x xs ih =>
      intro left s hleft h
      rw [List.forall_mem_cons] at h
      have hnext : (Expr.concat left (f x)).value record = .text (s ++ g x) := by
        rw [Expr.value_concat, hleft, h.1]
        rfl
      rw [List.map_cons, List.foldl_cons, ih _ _ hnext h.2, List.map_cons, Text.concat, String.append_assoc]
  cases xs with
  | nil => rfl
  | cons x xs =>
    rw [List.forall_mem_cons] at h
    exact hfold xs (f x) (g x) h.1 h.2

end Pattern

end FeatureAlignment
