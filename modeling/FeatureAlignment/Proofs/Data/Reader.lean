import FeatureAlignment.Proofs.Data.Json
import FeatureAlignment.Data.Json.Reader

/-!
# Texts of JSON

Whatever text is read, the tree is a value of JSON: the lexer only makes tokens that are, and the assembly
puts nothing else together.

* `Json.isJson_of_read?`: only values of JSON are read.
-/

namespace FeatureAlignment

/-- What every step keeps, a run of steps keeps. -/
theorem foldlM_keeps {σ τ : Type} {step : σ → τ → Option σ} {P : σ → Prop} {ts : List τ}
    (hstep : ∀ s, ∀ t ∈ ts, P s → ∀ s', step s t = some s' → P s') :
    ∀ {s s' : σ}, P s → ts.foldlM step s = some s' → P s' := by
  induction ts with
  | nil => exact fun h hs => by cases hs; exact h
  | cons t ts ih =>
    intro s s' h hs
    rw [List.foldlM_cons] at hs
    obtain ⟨m, hm, hs⟩ := Option.bind_eq_some_iff.1 hs
    exact ih (fun s u hu => hstep s u (List.mem_cons_of_mem _ hu)) (hstep s t List.mem_cons_self h m hm) hs

namespace Json

/-! ## Numbers -/

theorem isFinite_of_scaleBy? : ∀ {fuel : Nat} {d e : Double} {k : Int}, scaleBy? fuel d k = some e →
    e.isFinite = true := by
  intro fuel
  induction fuel with
  | zero => exact fun h => by cases h
  | succ fuel ih =>
    intro d e k h
    unfold scaleBy? at h
    split at h
    · simp only at h
      split at h
      · rename_i hfinite
        cases h
        exact hfinite
      · cases h
    · split at h
      · rename_i hzero
        cases h
        cases d <;> first | rfl | cases hzero
      · split at h
        · cases h
        · exact ih h

theorem isFinite_of_double? {negative : Bool} {whole fraction : List Char} {exponent : Int} {d : Double}
    (h : double? negative whole fraction exponent = some d) : d.isFinite = true := by
  obtain ⟨e, he, rfl⟩ := Option.map_eq_some_iff.1 h
  have hfinite := isFinite_of_scaleBy? he
  cases e with
  | nan => cases hfinite
  | infinite _ => cases hfinite
  | finite _ _ _ => rfl

theorem isJson_integer {i : Int} (hlow : -9223372036854775808 ≤ i) (hhigh : i < 18446744073709551616) :
    (Data.integer i).isJson = true := decide_eq_true ⟨hlow, hhigh⟩

theorem isJson_of_integer? {negative : Bool} {whole : List Char} {d : Data}
    (h : integer? negative whole = some d) : d.isJson = true := by
  unfold integer? at h
  simp only at h
  split at h
  · split at h
    · cases h
      rfl
    · split at h
      · rename_i hn
        have hn : Text.valueOfDigits whole ≤ 2 ^ 63 := hn
        cases h
        refine isJson_integer ?_ ?_ <;> omega
      · split at h
        · cases h
          exact Double.isFinite_ofNumeral _ (by assumption)
        · cases h
  · split at h
    · rename_i hn
      have hn : Text.valueOfDigits whole < 2 ^ 64 := hn
      cases h
      refine isJson_integer ?_ ?_ <;> omega
    · cases h

theorem isJson_of_number? {cs : List Char} {d : Data} (h : number? cs = some d) : d.isJson = true := by
  have hinteger : ∀ (negative : Bool) (whole : List Char) (other : Data), other.isJson = true →
      ((integer? negative whole).getD other).isJson = true := by
    intro negative whole other hother
    cases hi : integer? negative whole with
    | some i => exact isJson_of_integer? hi
    | none => exact hother
  unfold number? at h
  simp only [Option.bind_eq_bind, Option.ite_none_left_eq_some, Option.bind_eq_some_iff] at h
  obtain ⟨-, -, exponent, -, h⟩ := h
  rcases ite_eq_iff.1 h with ⟨-, h⟩ | ⟨-, h⟩
  · rw [← Option.some_inj.1 h]
    split
    · rename_i d hd
      exact isFinite_of_double? hd
    · rfl
  · rw [← Option.some_inj.1 h]
    refine hinteger _ _ _ ?_
    split
    · rename_i d hd
      exact isFinite_of_double? hd
    · rfl

/-! ## Tokens -/

theorem isJson_of_bare? {cs : List Char} {d : Data} (h : bare? cs = some d) : d.isJson = true := by
  unfold bare? at h
  split at h
  · cases h
    rfl
  · split at h
    · cases h
      rfl
    · split at h
      · cases h
        rfl
      · exact isJson_of_number? h

/-- A token whose value, if it has one, is one of JSON. -/
def Token.isJson : Token → Bool
  | .scalar d => d.isJson
  | _ => true

namespace Lexer

variable {l l' : Lexer}

/-- All tokens so far have values of JSON. -/
def Sound (l : Lexer) : Prop := ∀ t ∈ l.tokens, t.isJson = true

theorem Sound.push (h : l.Sound) {t : Token} (ht : t.isJson = true) {place : Place} :
    Sound ⟨place, t :: l.tokens⟩ := fun u hu => (List.mem_cons.1 hu).elim (fun heq => heq ▸ ht) (h u)

theorem Sound.settle? (h : l.Sound) (hs : l.settle? = some l') : l'.Sound := by
  unfold Lexer.settle? at hs
  split at hs
  · obtain ⟨d, hd, hs⟩ := Option.bind_eq_some_iff.1 hs
    cases hs
    exact h.push (t := .scalar d) (isJson_of_bare? hd)
  · cases hs
    exact h

theorem Sound.open? (h : l.Sound) {c : Char} (hs : l.open? c = some l') : l'.Sound := by
  unfold Lexer.open? at hs
  simp only at hs
  repeat' split at hs
  all_goals cases hs
  all_goals first | exact h | exact h.push rfl

/-- **One character keeps the tokens sound.** -/
theorem Sound.step (h : l.Sound) {c : Char} (hs : l.step c = some l') : l'.Sound := by
  have hquoted : ∀ codes, (Json.quoted codes).isJson = true := by
    intro codes
    unfold Json.quoted
    split <;> rfl
  unfold Lexer.step at hs
  split at hs
  · exact h.open? hs
  · split at hs
    · cases hs
      exact h
    · obtain ⟨m, hm, hs⟩ := Option.bind_eq_some_iff.1 hs
      exact (h.settle? hm).open? hs
  · split at hs
    · cases hs
      exact h.push (t := .scalar _) (hquoted _)
    · split at hs
      · cases hs
        exact h
      · split at hs
        · cases hs
        · cases hs
          exact h
  · split at hs
    · cases hs
      exact h
    · obtain ⟨e, -, hs⟩ := Option.bind_eq_some_iff.1 hs
      cases hs
      exact h
  · obtain ⟨v, -, hs⟩ := Option.bind_eq_some_iff.1 hs
    simp only at hs
    split at hs <;> cases hs <;> exact h

end Lexer

/-- **The tokens of a text have values of JSON.** -/
theorem isJson_of_tokens? {s : String} {tokens : List Token} (h : tokens? s = some tokens) :
    ∀ t ∈ tokens, t.isJson = true := by
  obtain ⟨l, hl, h⟩ := Option.bind_eq_some_iff.1 h
  obtain ⟨m, hm, h⟩ := Option.bind_eq_some_iff.1 h
  have hstart : Lexer.Sound ⟨.between, []⟩ := fun _ ht => (List.not_mem_nil ht).elim
  have hsound := (foldlM_keeps (fun _ _ _ h _ hs => h.step hs) hstart hl).settle? hm
  split at h
  · cases h
    exact fun t ht => hsound t (List.mem_reverse.1 ht)
  · cases h

/-! ## Trees -/

/-- What an open list or record holds is of JSON. -/
def Frame.Sound : Frame → Prop
  | .items done => ∀ d ∈ done, d.isJson = true
  | .fields done => ∀ f ∈ done, f.1.isJsonKey = true ∧ f.2.isJson = true
  | .value done key => (∀ f ∈ done, f.1.isJsonKey = true ∧ f.2.isJson = true) ∧ key.isJsonKey = true

namespace Assembly

variable {stack : List Frame} {a : Assembly}

/-- All that has been put together is of JSON. -/
def Sound : Assembly → Prop
  | .running stack _ => ∀ f ∈ stack, f.Sound
  | .finished d => d.isJson = true

theorem sound_put (h : ∀ f ∈ stack, f.Sound) {d : Data} (hd : d.isJson = true) (hp : put stack d = some a) :
    a.Sound := by
  unfold put at hp
  split at hp <;> cases hp
  · exact hd
  · obtain ⟨hdone, hrest⟩ := List.forall_mem_cons.1 h
    exact List.forall_mem_cons.2 ⟨List.forall_mem_cons.2 ⟨hd, hdone⟩, hrest⟩
  · obtain ⟨⟨hdone, hkey⟩, hrest⟩ := List.forall_mem_cons.1 h
    exact List.forall_mem_cons.2 ⟨List.forall_mem_cons.2 ⟨⟨hkey, hd⟩, hdone⟩, hrest⟩

theorem sound_closeList (h : ∀ f ∈ stack, f.Sound) (hc : closeList stack = some a) : a.Sound := by
  unfold closeList at hc
  split at hc
  · obtain ⟨hdone, hrest⟩ := List.forall_mem_cons.1 h
    refine sound_put hrest ?_ hc
    split
    · exact Data.allJson_iff.2 fun d hd => hdone d (List.mem_reverse.1 hd)
    · rfl
  · cases hc

theorem sound_closeRecord (h : ∀ f ∈ stack, f.Sound) (hc : closeRecord stack = some a) : a.Sound := by
  unfold closeRecord at hc
  split at hc
  · obtain ⟨hdone, hrest⟩ := List.forall_mem_cons.1 h
    refine sound_put hrest ?_ hc
    split
    · exact Data.allJsonFields_iff.2 fun f hf => hdone f (List.mem_reverse.1 hf)
    · rfl
  · cases hc

theorem sound_openValue (h : ∀ f ∈ stack, f.Sound) {t : Token} (ht : t.isJson = true)
    (ho : openValue stack t = some a) : a.Sound := by
  unfold openValue at ho
  split at ho
  · cases ho
    exact List.forall_mem_cons.2 ⟨fun _ hd => (List.not_mem_nil hd).elim, h⟩
  · cases ho
    exact List.forall_mem_cons.2 ⟨fun _ hf => (List.not_mem_nil hf).elim, h⟩
  · exact sound_put h ht ho
  · cases ho

theorem sound_openKey (h : ∀ f ∈ stack, f.Sound) {t : Token} (ho : openKey stack t = some a) : a.Sound := by
  unfold openKey at ho
  split at ho <;> cases ho
  · obtain ⟨hdone, hrest⟩ := List.forall_mem_cons.1 h
    exact List.forall_mem_cons.2 ⟨⟨hdone, rfl⟩, hrest⟩
  · obtain ⟨hdone, hrest⟩ := List.forall_mem_cons.1 h
    exact List.forall_mem_cons.2 ⟨⟨hdone, rfl⟩, hrest⟩

/-- **One token keeps the assembly sound.** -/
theorem Sound.step {b : Assembly} (h : a.Sound) {t : Token} (ht : t.isJson = true) (hs : a.step t = some b) :
    b.Sound := by
  unfold Assembly.step at hs
  split at hs
  · cases hs
  · exact sound_openValue h ht hs
  · exact sound_closeList h hs
  · exact sound_openValue h ht hs
  · exact sound_openKey h hs
  · exact sound_closeRecord h hs
  · exact sound_openKey h hs
  · cases hs
    exact h
  · exact sound_closeList h hs
  · exact sound_closeRecord h hs
  · cases hs
    exact h
  · cases hs
    exact h
  · cases hs

end Assembly

/-- **Only values of JSON are read.** -/
theorem isJson_of_read? {s : String} {d : Data} (h : read? s = some d) : d.isJson = true := by
  obtain ⟨tokens, htokens, h⟩ := Option.bind_eq_some_iff.1 h
  obtain ⟨a, ha, h⟩ := Option.bind_eq_some_iff.1 h
  have hstart : Assembly.Sound (.running [] .value) := fun _ hf => (List.not_mem_nil hf).elim
  have hsound := foldlM_keeps (fun _ t ht h _ hs => h.step (isJson_of_tokens? htokens t ht) hs) hstart ha
  split at h
  · cases h
    exact hsound
  · cases h

end Json

end FeatureAlignment
