import Patchbay.Proofs.Boxes
import Patchbay.Proofs.Lives
import Patchbay.Proofs.Loading
import Patchbay.Proofs.Magnitudes

/-!
# GUI objects and their ranges

Sliders, radios and number boxes keep to the range between their two ends, whichever of them
is the smaller. Whatever they are told is clamped before it is stored, and what they send out
is what they store. A slider is in its range from the start, since a position is made a
value by going from one end to the other. A radio or a number box starts with the value that
its arguments name, in its range or not, and keeps it until it is told another.

## Implementation notes

The image of a slider position is computed with roundings that can leave the range. What is
assumed of it here is that it is the single nearest to the exact image.
-/

namespace Patchbay

/-- The kinds that keep to a range. -/
def GuiKind.hasRange : GuiKind → Bool
  | .horizontalSlider | .verticalSlider | .horizontalRadio | .verticalRadio | .number => true
  | _ => false

/-- The kinds that start at a stored position. -/
def GuiKind.isSlider : GuiKind → Bool
  | .horizontalSlider | .verticalSlider => true
  | _ => false

/-- The number that a message makes an object with a range store. -/
def Message.stored? : Message → Option Float32
  | .anything selector (.float value :: _) => if selector = .set then some value else none
  | message => message.number?

/-- No number of a message is a NaN. -/
def Message.IsNumeric (message : Message) : Prop :=
  ∀ value, Atom.float value ∈ message.arguments → Number.IsNumber value

/-- The numbers that emissions send out. -/
def forwarded (emissions : List Emission) : List Float32 :=
  emissions.filterMap fun emission =>
    match emission with
    | .outlet _ (.float value) | .send _ (.float value) => some value
    | _ => none

theorem Message.mem_arguments_of_number? {message : Message} {value : Float32}
    (h : message.number? = some value) : Atom.float value ∈ message.arguments := by
  cases message with
  | float number =>
    cases h
    exact List.mem_singleton_self _
  | list atoms =>
    rcases atoms with _ | ⟨⟨⟩, rest⟩ <;> cases h
    exact List.mem_cons_self
  | _ => cases h

theorem Message.mem_arguments_of_stored? {message : Message} {value : Float32}
    (h : message.stored? = some value) : Atom.float value ∈ message.arguments := by
  unfold stored? at h
  split at h
  · rw [Option.ite_none_right_eq_some, Option.some.injEq] at h
    rw [← h.2]
    exact List.mem_cons_self
  · exact mem_arguments_of_number? h

namespace Gui
variable {gui : Gui} {message : Message} {value : Float32}

/-- A value lies between the ends of the range. -/
def Covers (gui : Gui) (value : Float32) : Prop :=
  Number.Between gui.minimum gui.maximum value

/-- Answer some messages, one after the other. -/
def run (gui : Gui) : List Message → Gui × List Emission
  | [] => (gui, [])
  | message :: rest =>
    let (told, emissions) := gui.answer message
    let (last, more) := told.run rest
    (last, emissions ++ more)

/-! ## Clamping -/

theorem clamp_eq (hkind : gui.kind.hasRange) (value : Float32) :
    gui.clamp value = Number.clamp gui.range.1 gui.range.2 value := by
  unfold clamp
  cases h : gui.kind <;> first | rfl | (rw [h] at hkind; cases hkind)

/-- The two ends of the range are those that were given, in ascending order. -/
theorem range_bounds (hmin : Number.IsNumber gui.minimum) (hmax : Number.IsNumber gui.maximum) :
    gui.range.1 ≤ gui.range.2 ∧ (gui.range = (gui.minimum, gui.maximum) ∨
      gui.range = (gui.maximum, gui.minimum)) := by
  unfold range
  split
  · rename_i horder
    exact ⟨horder, .inl rfl⟩
  · rename_i hinverted
    rw [Number.le_iff hmin hmax] at hinverted
    refine ⟨?_, .inr rfl⟩
    rw [Number.le_iff hmax hmin]
    omega

theorem covers_clamp (hkind : gui.kind.hasRange) (hmin : Number.IsNumber gui.minimum)
    (hmax : Number.IsNumber gui.maximum) (hvalue : Number.IsNumber value) :
    gui.Covers (gui.clamp value) := by
  obtain ⟨horder, hrange⟩ := range_bounds hmin hmax
  rw [clamp_eq hkind]
  rcases hrange with hrange | hrange
  · rw [hrange] at horder ⊢
    exact .inl (Number.clamp_bounds hmin hmax hvalue horder)
  · rw [hrange] at horder ⊢
    exact .inr (Number.clamp_bounds hmax hmin hvalue horder)

/-! ## Messages -/

/-- The object once it has stored what a message tells it. -/
def told (gui : Gui) (message : Message) : Gui :=
  { gui with value := (message.stored?.map gui.clamp).getD gui.value }

/-- What an object with a range does about a message. -/
theorem answer_eq (hkind : gui.kind.hasRange) (message : Message) :
    gui.answer message = (gui.told message,
      if message = .bang ∨ message.number?.isSome then (gui.told message).output else []) := by
  unfold answer
  split
  · rename_i h
    rw [h] at hkind
    cases hkind
  · rename_i h
    rw [h] at hkind
    cases hkind
  · rename_i h
    rw [h] at hkind
    cases hkind
  · cases message with
    | bang =>
      have htoggle : gui.kind ≠ .toggle := by
        intro h
        rw [h] at hkind
        cases hkind
      simp [bang, htoggle, told, Message.stored?, Message.number?]
    | float value => simp [take, told, Message.stored?, Message.number?]
    | anything selector arguments =>
      by_cases hset : selector = .set
      · rcases arguments with _ | ⟨⟨⟩, rest⟩ <;>
          simp [hset, store, told, Message.stored?, Message.number?]
      · rcases arguments with _ | ⟨⟨⟩, rest⟩ <;>
          simp [hset, told, Message.stored?, Message.number?]
    | list atoms =>
      rcases atoms with _ | ⟨⟨⟩, rest⟩ <;> simp [take, told, Message.stored?, Message.number?]
    | symbol => simp [told, Message.stored?, Message.number?]
    | pointer => simp [told, Message.stored?, Message.number?]

/-- What an object with a range sends out is what it stores. -/
theorem eq_of_mem_forwarded_answer (hkind : gui.kind.hasRange) (message : Message)
    (h : value ∈ forwarded (gui.answer message).2) : value = (gui.told message).value := by
  have hbang : (gui.told message).kind ≠ .bang := by
    intro hbang
    rw [show gui.kind = .bang from hbang] at hkind
    cases hkind
  rw [answer_eq hkind] at h
  dsimp only at h
  split at h
  · unfold forwarded output at h
    rw [if_neg hbang] at h
    split at h <;> simpa using h
  · cases h

/-! ## Runs of messages -/

theorem kind_run (gui : Gui) (messages : List Message) :
    (gui.run messages).1.kind = gui.kind := by
  induction messages generalizing gui with
  | nil => rfl
  | cons message rest ih =>
    obtain ⟨value, hvalue⟩ := gui.exists_answer_eq message
    calc ((gui.answer message).1.run rest).1.kind
      _ = (gui.answer message).1.kind := ih _
      _ = gui.kind := by rw [hvalue]

section
variable {created : Gui} {property : Float32 → Prop}

/-- A message changes the value of an object and nothing else. -/
theorem told_same (hsame : gui = { created with value := gui.value }) (message : Message) :
    gui.told message = { created with value := (gui.told message).value } := by
  rw [hsame]
  rfl

theorem value_told (hsame : gui = { created with value := gui.value }) (message : Message) :
    (gui.told message).value = (message.stored?.map created.clamp).getD gui.value := by
  rw [hsame]
  rfl

/-- What holds of a value, and of all that is brought into the range, holds after a message. -/
theorem told_keeps (hsame : gui = { created with value := gui.value })
    (hclamp : ∀ number, Number.IsNumber number → property (created.clamp number))
    (hvalue : property gui.value) (hmessage : message.IsNumeric) :
    property (gui.told message).value := by
  rw [value_told hsame]
  cases hstored : message.stored? with
  | none => exact hvalue
  | some number => exact hclamp number (hmessage number (Message.mem_arguments_of_stored? hstored))

/-- What holds of a value after a message, and of all that is held and sent out afterwards,
holds of the whole run. -/
theorem run_cons (property : Float32 → Prop) {rest : List Message} (hkind : gui.kind.hasRange)
    (htold : property (gui.told message).value)
    (hrest : property ((gui.told message).run rest).1.value ∧
      ∀ value ∈ forwarded ((gui.told message).run rest).2, property value) :
    property (gui.run (message :: rest)).1.value ∧
      ∀ value ∈ forwarded (gui.run (message :: rest)).2, property value := by
  have hanswer : (gui.answer message).1 = gui.told message := by rw [answer_eq hkind]
  simp only [run, hanswer]
  refine ⟨hrest.1, fun value hvalue => ?_⟩
  rw [forwarded, List.filterMap_append] at hvalue
  rcases List.mem_append.mp hvalue with hfirst | hlater
  · rw [eq_of_mem_forwarded_answer hkind message hfirst]
    exact htold
  · exact hrest.2 value hlater

/-- What holds of a value, and of all that is brought into the range, holds after any run of
messages, and of all that is sent out on the way. -/
theorem run_keeps (hkind : created.kind.hasRange)
    (hclamp : ∀ number, Number.IsNumber number → property (created.clamp number))
    {messages : List Message} (hmessages : ∀ message ∈ messages, message.IsNumeric)
    (hsame : gui = { created with value := gui.value }) (hvalue : property gui.value) :
    property (gui.run messages).1.value ∧
      ∀ value ∈ forwarded (gui.run messages).2, property value := by
  induction messages generalizing gui with
  | nil => exact ⟨hvalue, List.forall_mem_nil _⟩
  | cons message rest ih =>
    have htold := told_keeps hsame hclamp hvalue (hmessages message List.mem_cons_self)
    exact run_cons property (hsame ▸ hkind) htold
      (ih (fun other hother => hmessages other (List.mem_cons_of_mem _ hother))
        (told_same hsame message) htold)

end

section
variable {created : Gui} {messages : List Message}

theorem run_append (gui : Gui) (first second : List Message) :
    (gui.run (first ++ second)).1 = ((gui.run first).1.run second).1 := by
  induction first generalizing gui with
  | nil => rfl
  | cons message rest ih => exact ih _

/-- A run of messages changes the value of an object and nothing else. -/
theorem run_same (hkind : created.kind.hasRange) (hsame : gui = { created with value := gui.value })
    (messages : List Message) :
    (gui.run messages).1 = { created with value := (gui.run messages).1.value } := by
  induction messages generalizing gui with
  | nil => exact hsame
  | cons message rest ih =>
    have hkind' : gui.kind.hasRange := by
      rw [hsame]
      exact hkind
    have hanswer : (gui.answer message).1 = gui.told message := by rw [answer_eq hkind']
    simp only [run, hanswer]
    exact ih (told_same hsame message)

/-- As long as an object is told no number, it holds and sends out what it held. -/
theorem run_of_unmoved (hkind : gui.kind.hasRange)
    (hmessages : ∀ message ∈ messages, message.stored? = none) :
    (gui.run messages).1 = gui ∧ ∀ value ∈ forwarded (gui.run messages).2, value = gui.value := by
  induction messages with
  | nil => exact ⟨rfl, List.forall_mem_nil _⟩
  | cons message rest ih =>
    have htold : gui.told message = gui := by
      rw [told, hmessages message List.mem_cons_self]
      rfl
    obtain ⟨hlast, hmore⟩ := ih fun other hother => hmessages other (List.mem_cons_of_mem _ hother)
    have hvalue : (gui.run rest).1.value = gui.value := congrArg Gui.value hlast
    have hrun : (gui.run (message :: rest)).1 = (gui.run rest).1 := by
      simp only [run, answer_eq hkind, htold]
    refine ⟨hrun.trans hlast,
      (run_cons (· = gui.value) hkind (congrArg Gui.value htold) ?_).2⟩
    rw [htold]
    exact ⟨hvalue, hmore⟩

end

/-! ## Creation -/

theorem kind_create (kind : GuiKind) (arguments : List Atom) (x y cellWidth : Int32) :
    (create kind arguments x y cellWidth).kind = kind := by
  cases kind <;> rfl

/-- The length of a slider, in pixels. -/
def sliderLength (kind : GuiKind) (arguments : List Atom) : Int32 :=
  if kind = .horizontalSlider then GuiArguments.int arguments 0 128
  else GuiArguments.int arguments 1 128

/-- The exact image of a position, counted in hundredths of a pixel, in the range of a slider. -/
def exactImage (gui : Gui) (position : Float32) (length : Int32) : ℚ :=
  let fraction := max 0 (min 1 (Number.exact position / (100 * max (length.toInt - 1) 1)))
  Number.exact gui.minimum + (Number.exact gui.maximum - Number.exact gui.minimum) * fraction

/-- The arguments give an object a range with finite ends, and a slider the value that its
position stands for. -/
structure Regular (created : Gui) (arguments : List Atom) : Prop where
  minimum_finite : created.minimum.isFinite = true
  maximum_finite : created.maximum.isFinite = true
  mapped : created.kind.isSlider → Number.IsNearest created.value
    (created.exactImage (GuiArguments.float arguments 16 0) (sliderLength created.kind arguments))

/-- The arguments of a slider from one to minus one, its knob in the middle. -/
def centred : List Atom :=
  let name := Atom.symbol ⟨"empty"⟩
  [.float 128, .float 15, .float 1, .float (-1), .float 0, .float 0, name, name, name,
    .float (-2), .float (-8), .float 0, .float 10, .float (-262144), .float (-1), .float (-1),
    .float 6350]

/-- The middle of the range is zero, and that is what the slider holds. -/
theorem regular_centred : (create .horizontalSlider centred 0 0 7).Regular centred where
  minimum_finite := by decide
  maximum_finite := by decide
  mapped := by
    intro _
    have hvalue : (create .horizontalSlider centred 0 0 7).value = 0 := by decide +kernel
    have hposition : GuiArguments.float centred 16 0 = 6350 := rfl
    have hlength : sliderLength .horizontalSlider centred = 128 := by decide
    have hminimum : Number.exact (create .horizontalSlider centred 0 0 7).minimum = 1 :=
      Number.exact_eq 1 (by decide)
    have hmaximum : Number.exact (create .horizontalSlider centred 0 0 7).maximum = -1 :=
      Number.exact_eq (-1) (by decide)
    have hmiddle : (create .horizontalSlider centred 0 0 7).exactImage 6350 128 =
        Number.exact 0 := by
      rw [exactImage, hminimum, hmaximum, Number.exact_eq 6350 (by decide),
        Number.exact_eq 0 (by decide), show (128 : Int32).toInt = 128 from rfl]
      norm_num
    rw [hvalue, hposition, kind_create, hlength, hmiddle]
    exact Number.isNearest_exact (by decide +kernel)

/-- A point on the way from one number to another is between them. -/
theorem between_of_fraction (first last : ℚ) {fraction : ℚ} (hlow : 0 ≤ fraction)
    (hhigh : fraction ≤ 1) :
    (first ≤ last → first ≤ first + (last - first) * fraction ∧
        first + (last - first) * fraction ≤ last) ∧
      (last ≤ first → last ≤ first + (last - first) * fraction ∧
        first + (last - first) * fraction ≤ first) := by
  constructor
  · intro horder
    constructor <;> nlinarith
  · intro horder
    constructor <;> nlinarith

theorem covers_of_isNearest {position : Float32} {length : Int32}
    (hmin : gui.minimum.isFinite = true) (hmax : gui.maximum.isFinite = true)
    (h : Number.IsNearest value (gui.exactImage position length)) : gui.Covers value := by
  obtain ⟨hascending, hdescending⟩ := between_of_fraction
    (Number.exact gui.minimum) (Number.exact gui.maximum)
    (le_max_left 0 (min 1 (Number.exact position / (100 * max (length.toInt - 1) 1))))
    (max_le zero_le_one (min_le_left _ _))
  rcases le_total (Number.exact gui.minimum) (Number.exact gui.maximum) with horder | horder
  · obtain ⟨hbelow, habove⟩ := hascending horder
    exact .inl (h.between hmin hmax hbelow habove)
  · obtain ⟨hbelow, habove⟩ := hdescending horder
    exact .inr (h.between hmax hmin hbelow habove)

/-- An object with a range, after some messages since it was made. -/
structure KeepsRange (created : Gui) (messages : List Message) : Prop where
  /-- A slider is in its range, and so is all that it has sent out. -/
  slider : created.kind.isSlider → created.Covers (created.run messages).1.value ∧
    ∀ value ∈ forwarded (created.run messages).2, created.Covers value
  /-- Any other object is in its range once it has been told a number, and so is all that it
  has sent out since. -/
  moved : ∀ earlier message later, messages = earlier ++ message :: later →
    message.stored?.isSome → created.Covers (created.run messages).1.value ∧
      ∀ value ∈ forwarded ((created.run earlier).1.run (message :: later)).2, created.Covers value
  /-- Before that it holds and sends out the value that it was made with. -/
  unmoved : (∀ message ∈ messages, message.stored? = none) →
    (created.run messages).1 = created ∧
      ∀ value ∈ forwarded (created.run messages).2, value = created.value

/-- Messages without a NaN take an object with a finite range into it, and never out of it. -/
theorem Regular.keepsRange {created : Gui} {arguments : List Atom}
    (h : created.Regular arguments) (hkind : created.kind.hasRange) {messages : List Message}
    (hmessages : ∀ message ∈ messages, message.IsNumeric) : created.KeepsRange messages := by
  have hclamp : ∀ number, Number.IsNumber number → created.Covers (created.clamp number) :=
    fun number => covers_clamp hkind (Number.isNumber_of_isFinite h.minimum_finite)
      (Number.isNumber_of_isFinite h.maximum_finite)
  constructor
  · intro hslider
    exact run_keeps hkind hclamp hmessages rfl
      (covers_of_isNearest h.minimum_finite h.maximum_finite (h.mapped hslider))
  · rintro earlier message later rfl hstored
    let before := (created.run earlier).1
    have hsame : before = { created with value := before.value } := run_same hkind rfl earlier
    have hkind' : before.kind.hasRange := hsame ▸ hkind
    have hmessage := hmessages message (List.mem_append_right _ List.mem_cons_self)
    have hlater : ∀ other ∈ later, other.IsNumeric := fun other hother =>
      hmessages other (List.mem_append_right _ (List.mem_cons_of_mem _ hother))
    obtain ⟨number, hnumber⟩ := Option.isSome_iff_exists.mp hstored
    have htold : created.Covers (before.told message).value := by
      rw [value_told hsame, hnumber]
      exact hclamp number (hmessage number (Message.mem_arguments_of_stored? hnumber))
    rw [run_append]
    exact run_cons created.Covers hkind' htold
      (run_keeps hkind hclamp hlater (told_same hsame message) htold)
  · exact run_of_unmoved hkind

end Gui

/-! ## In every session -/

theorem Node.create_ne_gui (className : String) (arguments : List Atom) (gui : Gui) :
    Node.create className arguments ≠ some (.gui gui) := by
  unfold create
  split <;> try exact fun h => by cases h
  · split
    · exact fun h => by cases h
    · intro h
      obtain ⟨kind, -, hkind⟩ := Option.map_eq_some_iff.mp h
      cases kind <;> cases hkind

/-- A GUI object is made from the words of its record. -/
theorem Canvas.exists_create_of_box (canvas : Canvas) (record : Record) {gui : Gui}
    (h : (canvas.box record).node = .gui gui) :
    ∃ (words : List String) (x y cellWidth : Int32), gui = Gui.create gui.kind
      (words.map fun word => expandWord word canvas.dollarZero) x y cellWidth := by
  unfold box at h
  split at h
  · unfold object at h
    simp only at h
    split at h
    · rename_i kind _
      cases h
      refine ⟨((splitColumns record.body).1.drop 1).filterMap Token.word?, record.int 2,
        record.int 3, (fontCell canvas.fontSize).1, ?_⟩
      rw [Gui.kind_create, List.map_filterMap]
    · split at h
      · cases h
      · split at h
        · rename_i node hnode
          cases h
          exact absurd hnode (Node.create_ne_gui _ _ _)
        · cases h
  all_goals simp [comment, entryBox, nested, messageBox] at h

/-- The GUI objects of a patch that is read are made from words. -/
theorem exists_create_of_readPatch {name path text : String} {dollarZero : Int32} {patch : Patch}
    {diagnostics : List String}
    (h : readPatch name path text dollarZero = .ok (patch, diagnostics)) {object : Nat}
    {gui : Gui} (hnode : patch.node? object = some (.gui gui)) :
    ∃ (words : List String) (x y cellWidth : Int32), gui = Gui.create gui.kind
      (words.map fun word => expandWord word dollarZero) x y cellWidth := by
  obtain ⟨hnumber, hobjects⟩ := objects_of_readPatch h
  obtain ⟨box, hbox, hgui⟩ := Option.map_eq_some_iff.mp hnode
  rw [hobjects, List.getElem?_map] at hbox
  obtain ⟨record, -, rfl⟩ := Option.map_eq_some_iff.mp hbox
  rw [← hnumber]
  exact patch.canvas.exists_create_of_box record hgui

/-- What loading a name reads is a text. -/
theorem Environment.exists_read_of_patchNamed? {environment : Environment}
    {name directory : String} {patch : Patch}
    (h : environment.patchNamed? name directory = some patch) :
    ∃ name path text dollarZero diagnostics,
      readPatch name path text dollarZero = .ok (patch, diagnostics) := by
  obtain ⟨path, -, hread⟩ := Option.bind_eq_some_iff.mp h
  obtain ⟨⟨read, diagnostics⟩, hfile, rfl⟩ := Option.map_eq_some_iff.mp hread
  cases hresult : (environment.readPatchFile path).2 with
  | error failure =>
    rw [hresult] at hfile
    cases hfile
  | ok value =>
    rw [hresult] at hfile
    cases hfile
    obtain ⟨name, text, dollarZero, htext⟩ := exists_text_of_readPatchFile hresult
    exact ⟨name, path, text, dollarZero, diagnostics, htext⟩

/-- A handle is given out for a patch that has been read. -/
theorem exists_read_of_handed {turn : Turn} {position : Nat} {id : PatchId} {patch : Patch}
    (h : turn.handed position = some (id, patch)) :
    ∃ name path text dollarZero diagnostics,
      readPatch name path text dollarZero = .ok (patch, diagnostics) := by
  obtain ⟨request, -, hhanded⟩ := Option.bind_eq_some_iff.mp h
  unfold Request.handed at hhanded
  split at hhanded
  · obtain ⟨found, hfound, heq⟩ := Option.map_eq_some_iff.mp hhanded
    cases heq
    exact Environment.exists_read_of_patchNamed? hfound
  · cases hhanded

/-- What has lived was made in a patch that has been read. -/
theorem Lived.exists_read {position : Nat} {place : NodeRef} {turns : List Turn} {made : Node}
    {told : List (Nat × Message)} (h : Lived position place turns made told) :
    ∃ name path text dollarZero patch diagnostics,
      readPatch name path text dollarZero = .ok (patch, diagnostics) ∧
        patch.node? place.object = some made := by
  induction h with
  | made hmakes =>
    obtain ⟨id, patch, hhanded, -, hmade⟩ := hmakes
    obtain ⟨name, path, text, dollarZero, diagnostics, hread⟩ := exists_read_of_handed hhanded
    exact ⟨name, path, text, dollarZero, patch, diagnostics, hread, hmade⟩
  | later _ _ _ ih => exact ih

/-- An object that is a GUI object has always been one. -/
theorem Node.exists_gui_of_afterAll {node : Node} {told : List (Nat × Message)} {gui : Gui}
    (h : node.afterAll told = .gui gui) :
    ∃ created, node = .gui created ∧ gui = (created.run (told.map Prod.snd)).1 := by
  induction told generalizing node with
  | nil => exact ⟨gui, h, rfl⟩
  | cons message rest ih =>
    obtain ⟨later, hlater, rfl⟩ := ih h
    replace hlater : (node.answer message.1 message.2).1 = .gui later := hlater
    have houtline : node.outline = .gui { later with value := 0 } := by
      rw [← Node.outline_answer node message.1 message.2, hlater]
      rfl
    have hgui : ∃ created, node = .gui created := by
      cases node with
      | gui created => exact ⟨created, rfl⟩
      | arithmetic operation right => cases right <;> cases houtline
      | _ => cases houtline
    obtain ⟨created, rfl⟩ := hgui
    refine ⟨created, rfl, ?_⟩
    have hanswer : (created.answer message.2).1 = later := Node.gui.inj hlater
    rw [← hanswer]
    rfl

/-- In every session each slider, radio and number box of an open patch was made from creation
arguments when the patch was loaded, and is what the messages that it has been told since have
made of it. If the ends of its range are finite, messages that carry no NaN keep it to the
range, a slider from the start, and the others from the first number on that they are told. -/
theorem Rack.Chronicle.gui_keepsRange {turns : List Turn} {rack : Rack}
    (h : Rack.Chronicle turns rack) {position : Nat} {inst : Instance}
    (hinst : rack.instance? position = some inst) {place : NodeRef} {gui : Gui}
    (hnode : inst.engine.slots.node? place = some (.gui gui)) (hrange : gui.kind.hasRange) :
    ∃ arguments x y cellWidth told,
      let created := Gui.create gui.kind arguments x y cellWidth
      Lived position place turns (.gui created) told ∧
        gui = (created.run (told.map Prod.snd)).1 ∧
        (created.Regular arguments →
          ∀ messages, (∀ message ∈ messages, message.IsNumeric) →
            created.KeepsRange messages) := by
  obtain ⟨made, told, hlived, hafter⟩ := h.exists_lived hinst hnode
  obtain ⟨created, rfl, hgui⟩ := Node.exists_gui_of_afterAll hafter.symm
  obtain ⟨name, path, text, dollarZero, patch, diagnostics, hread, hmade⟩ := hlived.exists_read
  obtain ⟨words, x, y, cellWidth, hcreated⟩ := exists_create_of_readPatch hread hmade
  have hkind : created.kind = gui.kind := by rw [hgui, Gui.kind_run]
  rw [hkind] at hcreated
  refine ⟨_, x, y, cellWidth, told, hcreated ▸ hlived, hcreated ▸ hgui,
    fun hregular messages => hregular.keepsRange ?_⟩
  rw [Gui.kind_create]
  exact hrange

/-! ## Sessions with a GUI object -/

/-- The GUI object that a node is. -/
def Node.gui? : Node → Option Gui
  | .gui object => some object
  | _ => none

/-- The GUI object at a place of the first instance, after a session. -/
def guiAfter? (actions : List HostAction) (place : NodeRef) : Option Gui :=
  (({} : Rack).session actions).bind fun rack =>
    (rack.instance? 0).bind fun inst => (inst.engine.slots.node? place).bind Node.gui?

theorem exists_of_guiAfter? {actions : List HostAction} {place : NodeRef} {gui : Gui}
    (h : guiAfter? actions place = some gui) :
    ∃ rack : Rack, ∃ inst, ({} : Rack).session actions = some rack ∧
      rack.instance? 0 = some inst ∧ inst.engine.slots.node? place = some (.gui gui) := by
  obtain ⟨rack, hrack, hinstance⟩ := Option.bind_eq_some_iff.mp h
  obtain ⟨inst, hinst, hobject⟩ := Option.bind_eq_some_iff.mp hinstance
  obtain ⟨node, hnode, hgui⟩ := Option.bind_eq_some_iff.mp hobject
  refine ⟨rack, inst, hrack, hinst, hnode.trans (congrArg some ?_)⟩
  cases node <;> cases hgui
  rfl

/-- A number box with its ends in descending order is told a number above both. -/
def descending : List HostAction :=
  [.create none,
    .setFiles
      { entries := [(["a.pd"], .file (.text
          ("#N canvas 0 0 9 9 10;\n#X obj 0 0 nbx 5 14 1 -1 0 0 empty in empty 0 -8 0 10 " ++
            "-262144 -1 -1 0 256;\n")))] },
    .request 0 (.load "/a.pd" ""),
    .request 0 (.send ⟨"in"⟩ (.float 5))]

/-- The box holds the end that is the higher one, and goes on to the other. -/
theorem Rack.Chronicle.gui_keepsRange_descending :
    ∃ turns, ∃ rack : Rack, ∃ inst gui created told, Rack.Chronicle turns rack ∧
      rack.instance? 0 = some inst ∧
      inst.engine.slots.node? { slot := 0, object := 0 } = some (.gui gui) ∧
      gui.minimum = 1 ∧ gui.maximum = -1 ∧ gui.value = 1 ∧
      Lived 0 { slot := 0, object := 0 } turns (.gui created) told ∧
      gui = (created.run (told.map Prod.snd)).1 ∧
      created.Covers (created.run [.float (-7), .bang]).1.value := by
  have hsession : (guiAfter? descending { slot := 0, object := 0 }).any (fun gui => decide
      (gui.kind = .number ∧ gui.minimum = 1 ∧ gui.maximum = -1 ∧ gui.value = 1)) = true := by
    rw [guiAfter?, Rack.session_of_load descending 2 ["a.pd"] rfl rfl rfl
      (append_eq_ofList rfl rfl) (by decide), readPatch, readRecords_ofList]
    decide +kernel
  obtain ⟨gui, hafter, hheld⟩ := (Option.any_eq_true _ _).mp hsession
  obtain ⟨rack, inst, hrack, hinst, hnode⟩ := exists_of_guiAfter? hafter
  obtain ⟨hkind, hminimum, hmaximum, hvalue⟩ := of_decide_eq_true hheld
  have hchronicle : Rack.Chronicle _ rack := Chronicle.start.session hrack
  have hrange : gui.kind.hasRange := by rw [hkind]; rfl
  obtain ⟨arguments, x, y, cellWidth, told, hlived, hgui, hkeeps⟩ :=
    hchronicle.gui_keepsRange hinst hnode hrange
  let created := Gui.create gui.kind arguments x y cellWidth
  have hcreated : created.kind = gui.kind := Gui.kind_create _ _ _ _ _
  have hsame : gui = { created with value := gui.value } := by
    rw [hgui]
    exact Gui.run_same (hcreated ▸ hrange) rfl (told.map Prod.snd)
  have hregular : created.Regular arguments :=
    { minimum_finite := by
        rw [← congrArg Gui.minimum hsame, hminimum]
        decide
      maximum_finite := by
        rw [← congrArg Gui.maximum hsame, hmaximum]
        decide
      mapped := by
        rw [hcreated, hkind]
        exact fun hslider => absurd hslider Bool.false_ne_true }
  have hmoved := (hkeeps hregular [.float (-7), .bang] ?_).moved [] (.float (-7)) [.bang] rfl rfl
  · exact ⟨_, rack, inst, gui, created, told, hchronicle, hinst, hnode, hminimum, hmaximum,
      hvalue, hlived, hgui, hmoved.1⟩
  · intro message hmessage
    rcases List.mem_pair.mp hmessage with rfl | rfl
    · intro value hvalue
      cases List.mem_singleton.mp hvalue
      decide
    · exact fun _ hvalue => absurd hvalue List.not_mem_nil

/-- A radio with a single button stores that its fourth button is on. -/
def fourthOfOne : List HostAction :=
  [.create none,
    .setFiles
      { entries := [(["a.pd"], .file (.text
          ("#N canvas 0 0 9 9 10;\n#X obj 0 0 hradio 15 1 0 1 empty empty empty 0 -8 0 10 " ++
            "-262144 -1 -1 3;\n")))] },
    .request 0 (.load "/a.pd" "")]

/-- A radio holds the value that it was made with, which need not be in its range. -/
theorem Rack.Reachable.exists_gui_outside_range :
    ∃ rack : Rack, ∃ inst gui, rack.Reachable ∧ rack.instance? 0 = some inst ∧
      inst.engine.slots.node? { slot := 0, object := 0 } = some (.gui gui) ∧
      gui.kind.hasRange ∧ gui.minimum = 0 ∧ gui.maximum = 0 ∧ gui.value = 3 ∧
      ¬ gui.Covers gui.value := by
  have hsession : (guiAfter? fourthOfOne { slot := 0, object := 0 }).any (fun gui => decide
      (gui.kind.hasRange ∧ gui.minimum = 0 ∧ gui.maximum = 0 ∧ gui.value = 3)) = true := by
    rw [guiAfter?, Rack.session_of_load fourthOfOne 2 ["a.pd"] rfl rfl rfl
      (append_eq_ofList rfl rfl) (by decide), readPatch, readRecords_ofList]
    decide +kernel
  obtain ⟨gui, hafter, hheld⟩ := (Option.any_eq_true _ _).mp hsession
  obtain ⟨rack, inst, hrack, hinst, hnode⟩ := exists_of_guiAfter? hafter
  obtain ⟨hrange, hminimum, hmaximum, hvalue⟩ := of_decide_eq_true hheld
  have houtside : ¬ gui.Covers gui.value := by
    rw [Gui.Covers, hminimum, hmaximum, hvalue]
    unfold Number.Between
    decide
  exact ⟨rack, inst, gui, Rack.Reachable.fresh.session hrack, hinst, hnode, hrange, hminimum,
    hmaximum, hvalue, houtside⟩

end Patchbay
