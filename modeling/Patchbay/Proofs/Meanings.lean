import Patchbay.Proofs.Readings

/-!
# What computations with numbers mean

Something made of numbers means what every faithful reading of the tables makes of it. It
keeps its meaning when more names are numbered. A computation that numbers names gives a
value if its result means this value by the tables that it leaves behind, whatever was in
the tables before.

## Implementation notes

Nothing means anything by tables that do not fit, so that the bound on the number of names
is asked for once, of the tables at the end.
-/

namespace Patchbay.Numbered

variable {α β γ δ : Type} [Named α β] [Named γ δ] {ρ : Reading} {tables later : Tables}

/-! ## Meanings -/

/-- Every faithful reading of the tables takes `x` for `y`. -/
def Means (tables : Tables) (x : α) (y : β) : Prop :=
  tables.Proper → ∀ ρ : Reading, ρ.Reads tables → named ρ x = y

section
variable {x : α} {y : β} {z : γ} {w : δ}

/-- Numbering more names takes no meaning away. -/
theorem Means.mono (h : Means tables x y) (hlater : tables.Later later) : Means later x y :=
  fun hproper _ hρ => h (hlater.proper hproper) _ (hρ.of_later hlater)

/-- It may be assumed that the names fit. -/
theorem Means.of_proper (h : tables.Proper → Means tables x y) : Means tables x y :=
  fun hproper => h hproper hproper

/-- What commutes with reading keeps meanings. -/
theorem Means.map {f : α → γ} {g : β → δ} (h : Means tables x y)
    (hf : ∀ ρ : Reading, ρ.Faithful → named ρ (f x) = g (named ρ x)) : Means tables (f x) (g y) :=
  fun hproper ρ hρ => by rw [hf ρ hρ.toFaithful, h hproper ρ hρ]

theorem Means.map₂ {ε ζ : Type} [Named ε ζ] {f : α → γ → ε} {g : β → δ → ζ}
    (hx : Means tables x y) (hz : Means tables z w)
    (hf : ∀ ρ : Reading, ρ.Faithful → named ρ (f x z) = g (named ρ x) (named ρ z)) :
    Means tables (f x z) (g y w) :=
  fun hproper ρ hρ => by rw [hf ρ hρ.toFaithful, hx hproper ρ hρ, hz hproper ρ hρ]

/-- What has no numbers in it means one thing always. -/
theorem Means.of_named (h : ∀ ρ : Reading, ρ.Faithful → named ρ x = y) : Means tables x y :=
  fun _ ρ hρ => h ρ hρ.toFaithful

theorem Means.prod (hx : Means tables x y) (hz : Means tables z w) :
    Means tables (x, z) (y, w) :=
  fun hproper ρ hρ => Prod.ext (hx hproper ρ hρ) (hz hproper ρ hρ)

theorem Means.fst {x : α × γ} {y : β × δ} (h : Means tables x y) : Means tables x.1 y.1 :=
  fun hproper ρ hρ => congrArg Prod.fst (h hproper ρ hρ)

theorem Means.snd {x : α × γ} {y : β × δ} (h : Means tables x y) : Means tables x.2 y.2 :=
  fun hproper ρ hρ => congrArg Prod.snd (h hproper ρ hρ)

/-- What is told without names is told alike of a thing and of its meaning. -/
theorem Means.same {κ : Type} {f : α → κ} {g : β → κ} (h : Means tables x y)
    (hproper : tables.Proper)
    (hf : ∀ ρ : Reading, ρ.Faithful → g (named ρ x) = f x) : g y = f x := by
  have hρ := hproper.grown.reads_extended 'a'
  rw [← h hproper _ hρ, hf _ hρ.toFaithful]

/-- What may be missing is missing from its meaning too. -/
theorem Means.option {found : Option α} {found' : Option β} (h : Means tables found found')
    (hproper : tables.Proper) :
    (found = none ∧ found' = none) ∨
      ∃ x y, found = some x ∧ found' = some y ∧ Means tables x y := by
  have hread := h hproper _ (hproper.grown.reads_extended 'a')
  cases found with
  | none => exact .inl ⟨rfl, hread.symm⟩
  | some x =>
    refine .inr ⟨x, _, rfl, hread.symm, fun hproper ρ hρ => ?_⟩
    exact Option.some.inj ((h hproper ρ hρ).trans hread.symm)

theorem Means.some (h : Means tables x y) : Means tables (some x) (some y) :=
  fun hproper ρ hρ => congrArg Option.some (h hproper ρ hρ)

/-- What is made of something that may be missing keeps its meaning. -/
theorem Means.optionMap {found : Option α} {found' : Option β} {f : α → γ} {g : β → δ}
    (h : Means tables found found')
    (hf : ∀ {x : α} {y : β}, Means tables x y → Means tables (f x) (g y)) :
    Means tables (found.map f) (found'.map g) := by
  refine .of_proper fun hproper => ?_
  rcases h.option hproper with ⟨rfl, rfl⟩ | ⟨x, y, rfl, rfl, hxy⟩
  · exact .of_named fun _ _ => rfl
  · exact (hf hxy).some

/-- What may fail fails alike. -/
theorem Means.except {done : Except Failure α} {done' : Except Failure β}
    (h : Means tables done done') (hproper : tables.Proper) :
    (∃ failure, done = .error failure ∧ done' = .error failure) ∨
      ∃ x y, done = .ok x ∧ done' = .ok y ∧ Means tables x y := by
  have hread := h hproper _ (hproper.grown.reads_extended 'a')
  cases done with
  | error failure => exact .inl ⟨failure, rfl, hread.symm⟩
  | ok x =>
    refine .inr ⟨x, _, rfl, hread.symm, fun hproper ρ hρ => ?_⟩
    exact Except.ok.inj ((h hproper ρ hρ).trans hread.symm)

/-- The tables themselves are right about what has a meaning. -/
theorem Means.named_reading [LawfulNamed α] (h : Means tables x y) (hproper : tables.Proper) :
    named tables.reading x = y := by
  have hgrown := hproper.grown
  have ha := h hproper _ (hgrown.reads_extended 'a')
  have hb := h hproper _ (hgrown.reads_extended 'b')
  rw [named_eq hgrown.meets_extended (ha.trans hb.symm), ha]

/-- A text that the tables are asked for is that of the names. -/
theorem Means.text [LawfulNamed α] {shown : String} {g : β → String} (h : Means tables x y)
    (hshown : shown = g (named tables.reading x)) : Means tables shown (g y) := by
  intro hproper ρ _
  rw [← h.named_reading hproper]
  exact hshown

end

/-! ## Computations -/

namespace Numbering

/-- The result of a computation means `y` by the tables that it leaves behind. -/
def Gives (tables : Tables) (m : Numbering α) (y : β) : Prop :=
  tables.Grown → Means (m.run tables).2 (m.run tables).1 y

theorem later_run (m : Numbering α) (h : tables.Grown) : tables.Later (m.run tables).2 :=
  ⟨h, m.notes tables⟩

/-- It may be assumed that the names still fit. -/
theorem Gives.of_proper {m : Numbering α} {y : β} (h : tables.Proper → Gives tables m y) :
    Gives tables m y :=
  fun hgrown hproper =>
    h ((m.later_run hgrown).proper hproper) hgrown hproper

theorem Gives.pure {x : α} {y : β} (h : Means tables x y) :
    Gives tables (Pure.pure x : Numbering α) y :=
  fun _ => h

/-- What is read off the tables has its meaning by them. -/
theorem Gives.ask {view : Tables → α} {y : β} (h : Means tables (view tables) y) :
    Gives tables (Numbering.ask view) y :=
  fun _ => h

/-- What follows a computation works on a value of known meaning, by later tables. -/
theorem Gives.bind {first : Numbering α} {next : α → Numbering γ} {y : β} {z : δ}
    (hfirst : Gives tables first y)
    (hnext : ∀ later, tables.Later later → ∀ x, Means later x y → Gives later (next x) z) :
    Gives tables (first >>= next) z := by
  intro hgrown
  have hlater := first.later_run hgrown
  exact hnext _ hlater _ (hfirst hgrown) hlater.grown

/-- A text that is read off the tables is known from then on. -/
theorem Gives.ask_bind {view : Tables → String} {text : String} {next : String → Numbering γ}
    {z : δ} (hview : Means tables (view tables) text) (hnext : Gives tables (next text) z) :
    Gives tables (Numbering.ask view >>= next) z := by
  refine .of_proper fun hproper hgrown => ?_
  have htext : view tables = text := hview.named_reading hproper
  show Means ((next (view tables)).run tables).2 ((next (view tables)).run tables).1 z
  rw [htext]
  exact hnext hgrown

/-- Computations that go through one list, from states of one meaning. -/
theorem Gives.foldlM {ι : Type} {step : α → ι → Numbering α} {step' : β → ι → β} {items : List ι}
    (hstep : ∀ later, tables.Later later → ∀ item ∈ items, ∀ x y, Means later x y →
      Gives later (step x item) (step' y item))
    {x : α} {y : β} (h : Means tables x y) :
    Gives tables (items.foldlM step x) (items.foldl step' y) := by
  intro hgrown
  induction items generalizing tables x y with
  | nil => exact Gives.pure h hgrown
  | cons item rest ih =>
    refine Gives.bind (hstep tables (.refl hgrown) item List.mem_cons_self x y h) ?_ hgrown
    intro later hlater x' hx' hgrown'
    exact ih (fun last hlast other hother => hstep last (hlater.trans hlast) other
      (List.mem_cons_of_mem _ hother)) hx' hgrown'

/-- A list of values, computed one after the other. -/
theorem Gives.each {ι : Type} {f : ι → Numbering α} {g : ι → β}
    (h : ∀ later item, tables.Later later → Gives later (f item) (g item))
    (items : List ι) : Gives tables (each f items) (items.map g) := by
  intro hgrown
  induction items generalizing tables with
  | nil => exact Gives.pure (.of_named fun _ _ => rfl) hgrown
  | cons item rest ih =>
    refine Gives.bind (h tables item (.refl hgrown)) ?_ hgrown
    intro later hlater x hx
    refine Gives.bind (y := rest.map g) ?_ ?_
    · exact fun hgrown' => ih (fun last other hlast => h last other (hlater.trans hlast)) hgrown'
    · intro last hlast others hothers
      exact Gives.pure ((hx.mono hlast).map₂ hothers fun _ _ => rfl)

end Numbering

/-! ## Names that have just been numbered -/

/-- A table leads from the number it gives to a name back to the name. -/
theorem Table.Sound.nameOf_intern {table : Table} (h : table.Sound) {name : String}
    (hfits : (table.intern name).1.names.length ≤ 2 ^ 32) :
    (table.intern name).2.toNat < (table.intern name).1.names.length ∧
      (table.intern name).1.nameOf (table.intern name).2 = name := by
  have hlt := List.idxOf_lt_length_of_mem (h.mem_names_intern name)
  have hnumber : (table.intern name).2.toNat = (table.intern name).1.names.idxOf name := by
    rw [h.number_intern, UInt32.toNat_ofNat']
    exact Nat.mod_eq_of_lt (Nat.lt_of_lt_of_le hlt hfits)
  rw [hnumber]
  refine ⟨hlt, nameOf_of_getElem? ?_⟩
  rw [hnumber, List.getElem?_eq_getElem hlt, List.getElem_idxOf]

namespace Numbering

/-- A symbol means the name it has been numbered for. -/
theorem gives_symbol (tables : Tables) (name : String) : Gives tables (symbol name) ⟨name⟩ := by
  intro hgrown hproper ρ hρ
  obtain ⟨hlt, hname⟩ := (hgrown.sound .symbol).nameOf_intern (hproper.fits .symbol)
  exact (hρ.symbol_eq _ hlt).trans (congrArg _ hname)

/-- A tie means the name it has been numbered for. -/
theorem gives_tie (tables : Tables) (name : String) : Gives tables (tie name) ⟨name⟩ := by
  intro hgrown hproper ρ hρ
  obtain ⟨hlt, hname⟩ := (hgrown.sound .tie).nameOf_intern (hproper.fits .tie)
  exact (hρ.tie_eq _ hlt).trans (congrArg _ hname)

end Numbering

end Patchbay.Numbered
