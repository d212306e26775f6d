import Patchbay.Proofs.ReadMessages

/-!
# Objects read by names

What an object does with numbers is what the object of the same names does. Most of it
compares no more than selectors and asks whether a tie has a name. Only an object that prints,
and a `send` that is given a new name, look into the tables.

## Implementation notes

An object of numbers keeps what has no names as an object of names keeps it. Its creation
goes through `Atom.nameless`, the arguments without their names, so the object of names must
be shown to ignore the names there.
-/

namespace Patchbay

/-- An atom with its name left out. -/
def Atom.anonymous : Atom → Atom
  | .symbol _ => .symbol .empty
  | atom => atom

/-! ## Numbers among creation arguments -/

section
variable (arguments : List Atom) (index : Nat)

@[simp] theorem GuiArguments.float_anonymous (default : Float32) :
    float (arguments.map Atom.anonymous) index default = float arguments index default := by
  simp only [float, List.getElem?_map]
  rcases arguments[index]? with _ | atom
  · rfl
  · cases atom <;> rfl

@[simp] theorem GuiArguments.int_anonymous (default : Int32) :
    int (arguments.map Atom.anonymous) index default = int arguments index default := by
  simp only [int, List.getElem?_map]
  rcases arguments[index]? with _ | atom
  · rfl
  · cases atom <;> rfl

/-- Without the names of its arguments, a GUI object is built without its names. -/
theorem Gui.create_anonymous (kind : GuiKind) (x y cellWidth : Int32) :
    { Gui.create kind (arguments.map Atom.anonymous) x y cellWidth with
        label := .empty, send := .empty, receive := .empty } =
      { Gui.create kind arguments x y cellWidth with
        label := .empty, send := .empty, receive := .empty } := by
  cases kind <;>
    simp only [Gui.create, Gui.withNames, Gui.slider, Gui.radio, Gui.numberBox,
      GuiArguments.float_anonymous, GuiArguments.int_anonymous]

@[simp] theorem Atom.asFloat_anonymous (atom : Atom) : atom.anonymous.asFloat = atom.asFloat := by
  cases atom <;> rfl

@[simp] theorem intArgument_anonymous :
    intArgument (arguments.map Atom.anonymous) index = intArgument arguments index := by
  rw [intArgument, intArgument, show (Atom.empty) = Atom.anonymous .empty from rfl,
    List.getD_map, Atom.asFloat_anonymous]
  rfl

@[simp] theorem channelArguments_anonymous :
    channelArguments (arguments.map Atom.anonymous) = channelArguments arguments := by
  unfold channelArguments
  rw [List.filterMap_map]
  refine congrArg (fun channels : List Nat => if channels.isEmpty then [0, 1] else channels)
    (List.filterMap_congr fun atom _ => ?_)
  cases atom <;> rfl

@[simp] theorem Atom.asFloat_headD_anonymous :
    ((arguments.map Atom.anonymous).headD .empty).asFloat = (arguments.headD .empty).asFloat := by
  rcases arguments with _ | ⟨first, rest⟩
  · rfl
  · exact first.asFloat_anonymous

@[simp] theorem Node.midiOutput_anonymous (kind : MidiKind) :
    Node.midiOutput kind (arguments.map Atom.anonymous) = Node.midiOutput kind arguments := by
  simp only [Node.midiOutput, intArgument_anonymous]

@[simp] theorem Node.rightArgument_anonymous :
    Node.rightArgument (arguments.map Atom.anonymous) = Node.rightArgument arguments := by
  rcases arguments with _ | ⟨first, rest⟩
  · rfl
  · cases first <;> rfl

/-- The classes whose objects take names from their arguments. -/
def namedClasses : List String := ["r", "receive", "s", "send", "print"]

theorem Node.create_anonymous {className : String} (h : className ∉ namedClasses) :
    Node.create className (arguments.map Atom.anonymous) = Node.create className arguments := by
  simp only [namedClasses, List.mem_cons, List.not_mem_nil, or_false, not_or] at h
  obtain ⟨hr, hreceive, hs, hsend, hprint⟩ := h
  unfold Node.create
  split <;>
    first
    | contradiction
    | simp only [channelArguments_anonymous, Node.rightArgument_anonymous,
        Atom.asFloat_headD_anonymous, Node.midiOutput_anonymous]

end

end Patchbay

namespace Patchbay.Numbered

variable {ρ : Reading} {tables : Tables}

/-! ## Message boxes -/

theorem fill_named (arguments : Payload) (part : PieceAtom) :
    (named ρ part).fill (named ρ arguments) = named ρ (part.fill arguments) := by
  cases part with
  | literal atom => rfl
  | argument index => exact getD_named arguments index (.float 0)

namespace Reading.Faithful
variable (hρ : ρ.Faithful)
include hρ

theorem emit_named (arguments : Payload) (piece : Piece) :
    Patchbay.Piece.emit (named ρ arguments) (named ρ piece) = named ρ (piece.emit arguments) := by
  have hfilled : (named ρ piece).atoms.map (Patchbay.PieceAtom.fill (named ρ arguments)) =
      named ρ (piece.atoms.map (PieceAtom.fill arguments)) :=
    map_named (fill_named arguments) piece.atoms
  have htarget : (named ρ piece).target = named ρ piece.target := rfl
  rw [Patchbay.Piece.emit, Piece.emit, hfilled, hρ.ofAtoms_named, htarget]
  cases piece.target <;> rfl

theorem answerMessageBox_named (pieces : List Piece) (message : Message) :
    Patchbay.answerMessageBox (named ρ pieces) (named ρ message) =
      named ρ (answerMessageBox pieces message) := by
  have hemitted (arguments : Payload) :
      (named ρ pieces, (named ρ pieces).map (Patchbay.Piece.emit (named ρ arguments))) =
        named ρ (pieces, pieces.map (Piece.emit arguments)) := by
    rw [map_named (hρ.emit_named arguments), named_prod]
  cases message with
  | anything selector arguments =>
    have hset : [({ atoms := (named ρ arguments).map .literal } : Patchbay.Piece)] =
        named ρ [({ atoms := arguments.map .literal } : Piece)] :=
      congrArg (fun atoms => [({ atoms } : Patchbay.Piece)])
        (map_named (f := PieceAtom.literal) (fun _ => rfl) arguments)
    show (if named ρ selector = .set then _ else _) = named ρ (if selector = .set then _ else _)
    simp only [hρ.eq_set_iff]
    split
    · exact congrArg (·, []) hset
    · exact hemitted arguments
  | bang => exact hemitted []
  | float value => exact hemitted [.float value]
  | symbol value => exact hemitted [.symbol value]
  | pointer address => exact hemitted [.pointer address]
  | list atoms => exact hemitted atoms

/-! ## GUI objects -/

theorem output_named (gui : Gui) : (named ρ gui).output = named ρ gui.output := by
  have hkind : (named ρ gui).kind = gui.body.kind := rfl
  have hempty : (named ρ gui).send.isEmpty = gui.send.isEmpty := hρ.isEmpty_named gui.send
  unfold Patchbay.Gui.output Gui.output
  rw [hkind, hempty]
  split <;> split <;> rfl

theorem take_named (gui : Gui) (value : Float32) :
    (named ρ gui).take value = named ρ (gui.take value) :=
  congrArg (Prod.mk _) (hρ.output_named (gui.take value).1)

theorem bang_named (gui : Gui) : (named ρ gui).bang = named ρ gui.bang := by
  have hstored : (named ρ gui).bang.1 = named ρ gui.bang.1 := by
    by_cases h : gui.body.kind = .toggle
    · have hkind : (named ρ gui).kind = .toggle := h
      simp only [Patchbay.Gui.bang, Gui.bang, hkind, h, ↓reduceIte]
      rfl
    · have hkind : (named ρ gui).kind ≠ .toggle := h
      simp only [Patchbay.Gui.bang, Gui.bang, hkind, h, ↓reduceIte]
  refine Prod.ext hstored ?_
  show (named ρ gui).bang.1.output = named ρ gui.bang.1.output
  rw [hstored, hρ.output_named]

omit hρ in
theorem store_named (gui : Gui) (arguments : Payload) :
    (named ρ gui).store (named ρ arguments) = named ρ (gui.store arguments) := by
  rcases arguments with _ | ⟨first, rest⟩
  · rfl
  · cases first <;> rfl

/-- A GUI object looks at the kind of a message, at its numbers, and whether it is `set`. -/
theorem answer_gui_named (gui : Gui) (message : Message) :
    (named ρ gui).answer (named ρ message) = named ρ (gui.answer message) := by
  have hkind : (named ρ gui).kind = gui.body.kind := rfl
  cases h : gui.body.kind with
  | panel =>
    simp only [Patchbay.Gui.answer, Gui.answer, hkind.trans h, h, named_prod, named_list,
      List.map_nil]
  | vuMeter =>
    simp only [Patchbay.Gui.answer, Gui.answer, hkind.trans h, h, number?_named]
    cases message.number? <;> rfl
  | bang =>
    simp only [Patchbay.Gui.answer, Gui.answer, hkind.trans h, h, hρ.isSet_named, hρ.output_named]
    cases message.isSet <;> rfl
  | _ =>
    simp only [Patchbay.Gui.answer, Gui.answer, hkind.trans h, h]
    cases message with
    | bang => exact hρ.bang_named gui
    | float value => exact hρ.take_named gui value
    | list atoms =>
      rcases atoms with _ | ⟨first, rest⟩
      · rfl
      · cases first with
        | float value => exact hρ.take_named gui value
        | _ => rfl
    | anything selector arguments =>
      show (if named ρ selector = .set then _ else _) = named ρ (if selector = .set then _ else _)
      simp only [hρ.eq_set_iff]
      split
      · exact congrArg (·, []) (store_named gui arguments)
      · rfl
    | _ => rfl

end Reading.Faithful

/-! ### Creation -/

theorem anonymous_named (atom : Atom) : (named ρ atom).anonymous = atom.nameless := by
  cases atom <;> rfl

theorem map_anonymous_named (arguments : List Atom) :
    (named ρ arguments).map Patchbay.Atom.anonymous = arguments.map Atom.nameless := by
  rw [named_list, List.map_map]
  exact List.map_congr_left fun atom _ => anonymous_named atom

/-- Arguments and their meaning are alike without their names. -/
theorem Means.map_anonymous {arguments : List Atom} {arguments' : List Patchbay.Atom}
    (h : Means tables arguments arguments') (hproper : tables.Proper) :
    arguments'.map Patchbay.Atom.anonymous = arguments.map Atom.nameless :=
  h.same hproper (f := List.map Atom.nameless) fun _ _ => map_anonymous_named arguments

theorem name_argument_named (arguments : List Atom) (index : Nat) :
    GuiArguments.name tables arguments index =
      Patchbay.GuiArguments.name (named tables.reading arguments) index := by
  unfold GuiArguments.name Patchbay.GuiArguments.name
  rw [getElem?_named]
  rcases arguments[index]? with _ | atom
  · rfl
  · cases atom <;> rfl

namespace Numbering
variable {arguments : List Atom} {arguments' : List Patchbay.Atom}

theorem gives_guiTie (h : Means tables arguments arguments') (index : Nat) :
    Gives tables (GuiArguments.tie arguments index)
      (Patchbay.GuiArguments.tie arguments' index) := by
  refine .ask_bind (h.text (g := fun arguments => Patchbay.GuiArguments.name arguments index)
    (name_argument_named arguments index)) ?_
  split
  · rename_i hempty
    rw [Patchbay.GuiArguments.tie, String.isEmpty_iff.mp hempty]
    exact .pure (.of_named fun _ hρ => hρ.tie_empty)
  · exact gives_tie tables _

theorem gives_guiSymbol (h : Means tables arguments arguments') (index : Nat) :
    Gives tables (GuiArguments.symbol arguments index)
      (Patchbay.GuiArguments.symbol arguments' index) := by
  refine .ask_bind (h.text (g := fun arguments => Patchbay.GuiArguments.name arguments index)
    (name_argument_named arguments index)) ?_
  split
  · rename_i hempty
    rw [Patchbay.GuiArguments.symbol, String.isEmpty_iff.mp hempty]
    exact .pure (.of_named fun _ hρ => hρ.symbol_empty)
  · exact gives_symbol tables _

theorem gives_guiTieAt? (h : Means tables arguments arguments') (index : Option Nat) :
    Gives tables (GuiArguments.tieAt? arguments index)
      (index.elim .empty (Patchbay.GuiArguments.tie arguments')) := by
  cases index with
  | some index => exact gives_guiTie h index
  | none => exact .pure (.of_named fun _ hρ => hρ.tie_empty)

theorem create_gui_eq (kind : GuiKind) (arguments : List Patchbay.Atom) (x y cellWidth : Int32) :
    Patchbay.Gui.create kind arguments x y cellWidth =
      { ({ Patchbay.Gui.create kind arguments x y cellWidth with
            label := .empty, send := .empty, receive := .empty } : Patchbay.Gui) with
        label := Patchbay.GuiArguments.symbol arguments (Gui.namePositions kind).2.2
        send := (Gui.namePositions kind).1.elim .empty (Patchbay.GuiArguments.tie arguments)
        receive := Patchbay.GuiArguments.tie arguments (Gui.namePositions kind).2.1 } := by
  have hlabel : (Patchbay.Gui.create kind arguments x y cellWidth).label =
      Patchbay.GuiArguments.symbol arguments (Gui.namePositions kind).2.2 := by
    cases kind <;> rfl
  have hsend : (Patchbay.Gui.create kind arguments x y cellWidth).send =
      (Gui.namePositions kind).1.elim .empty (Patchbay.GuiArguments.tie arguments) := by
    cases kind <;> rfl
  have hreceive : (Patchbay.Gui.create kind arguments x y cellWidth).receive =
      Patchbay.GuiArguments.tie arguments (Gui.namePositions kind).2.1 := by
    cases kind <;> rfl
  rw [← hlabel, ← hsend, ← hreceive]

theorem gives_createGui (h : Means tables arguments arguments') (kind : GuiKind)
    (x y cellWidth : Int32) :
    Gives tables (Gui.create kind arguments x y cellWidth)
      (Patchbay.Gui.create kind arguments' x y cellWidth) := by
  rw [create_gui_eq]
  unfold Gui.create
  obtain ⟨sending, receiving, labelling⟩ := Gui.namePositions kind
  refine (gives_guiTieAt? h sending).bind fun first hfirst send hsend => ?_
  refine (gives_guiTie (h.mono hfirst) receiving).bind fun second hsecond receive hreceive => ?_
  have hsecond' := hfirst.trans hsecond
  refine (gives_guiSymbol (h.mono hsecond') labelling).bind fun third hthird label hlabel => ?_
  refine .pure fun hproper ρ hρ => ?_
  have hnameless := (h.mono (hsecond'.trans hthird)).map_anonymous hproper
  have hsent := (hsend.mono (hsecond.trans hthird)) hproper ρ hρ
  have hreceived := (hreceive.mono hthird) hproper ρ hρ
  have hlabelled := hlabel hproper ρ hρ
  rw [← Patchbay.Gui.create_anonymous arguments', hnameless, ← hsent, ← hreceived, ← hlabelled]
  rfl

end Numbering

/-! ## Reading message boxes -/

namespace Numbering

theorem means_ofAtom {atom : Atom} {atom' : Patchbay.Atom} (h : Means tables atom atom') :
    Means tables (PieceAtom.ofAtom tables atom) (Patchbay.PieceAtom.ofAtom atom') := by
  intro hproper ρ hρ
  have hread := h.named_reading hproper
  have hatom := h hproper ρ hρ
  subst hread
  cases atom with
  | symbol name =>
    have hname : named tables.reading (Atom.symbol name) = .symbol ⟨name.name tables⟩ := rfl
    rw [hname] at hatom ⊢
    cases hindex : argumentIndex? (name.name tables) with
    | some index =>
      simp only [PieceAtom.ofAtom, Patchbay.PieceAtom.ofAtom, hindex]
      rfl
    | none =>
      simp only [PieceAtom.ofAtom, Patchbay.PieceAtom.ofAtom, hindex]
      exact congrArg _ hatom
  | _ => rfl

theorem gives_pieceStep (dollarZero : Int32) {reader : PieceReader}
    {reader' : Patchbay.PieceReader} (h : Means tables reader reader') (token : Token) :
    Gives tables (reader.step dollarZero token) (reader'.step dollarZero token) := by
  refine .of_proper fun hproper => ?_
  have hawaits : reader'.awaitsTarget = reader.awaitsTarget := h.same hproper fun _ _ => rfl
  cases token with
  | word word =>
    show Gives tables (if reader.awaitsTarget then _ else _) (if reader'.awaitsTarget then _ else _)
    rw [hawaits]
    split
    · refine (gives_tie tables _).bind fun later hlater tie htie => .pure fun hproper ρ hρ => ?_
      rw [← (h.mono hlater) hproper ρ hρ, ← htie hproper ρ hρ]
      rfl
    · refine (gives_expandWord tables word dollarZero).bind fun later hlater atom hatom => ?_
      refine (Gives.ask (means_ofAtom hatom)).bind fun last hlast part hpart => ?_
      refine .pure fun hproper ρ hρ => ?_
      rw [← (h.mono (hlater.trans hlast)) hproper ρ hρ, ← hpart hproper ρ hρ]
      simp only [named, List.map_append]
      rfl
  | comma =>
    refine .pure fun hproper ρ hρ => ?_
    rw [← h hproper ρ hρ]
    rfl
  | semicolon =>
    refine .pure fun hproper ρ hρ => ?_
    rw [← h hproper ρ hρ]
    rfl

theorem finish_named (reader : PieceReader) :
    (named ρ reader).finish = named ρ reader.finish := by
  have hpieces : ((named ρ reader).current :: (named ρ reader).pieces).reverse =
      named ρ (reader.current :: reader.pieces).reverse :=
    (List.map_reverse (f := named ρ) (l := reader.current :: reader.pieces)).symm
  rw [Patchbay.PieceReader.finish, PieceReader.finish, hpieces, named_list, named_list,
    List.filter_map]
  refine congrArg _ (List.filter_congr fun piece _ => ?_)
  show (!(piece.atoms.map (named ρ)).isEmpty) = _
  rw [List.isEmpty_map]

theorem gives_readPieces (tables : Tables) (tokens : List Token) (dollarZero : Int32) :
    Gives tables (readPieces tokens dollarZero) (Patchbay.readPieces tokens dollarZero) := by
  refine (Gives.foldlM (y := ({} : Patchbay.PieceReader))
    (fun later _ token _ reader reader' hreader => gives_pieceStep dollarZero hreader token)
    (.of_named fun _ _ => rfl)).bind fun last _ reader hreader => ?_
  exact .pure (hreader.map (f := PieceReader.finish) fun _ _ => (finish_named reader).symm)

end Numbering

/-! ## Nodes -/

theorem named_ofNameless_midiOutput (kind : MidiKind) (arguments : List Patchbay.Atom) :
    named ρ (Node.ofNameless (.midiOutput kind arguments)) = .midiOutput kind arguments := by
  cases kind <;> rfl

/-- An object of a class without names has none. -/
theorem named_ofNameless_of_create {className : String} {arguments : List Patchbay.Atom}
    {node : Patchbay.Node} (hclass : className ∉ namedClasses)
    (h : Patchbay.Node.create className arguments = some node) :
    named ρ (Node.ofNameless node) = node := by
  simp only [namedClasses, List.mem_cons, List.not_mem_nil, or_false, not_or] at hclass
  obtain ⟨hr, hreceive, hs, hsend, hprint⟩ := hclass
  unfold Patchbay.Node.create at h
  split at h
  case h_14 =>
    split at h
    · cases h
      rfl
    · obtain ⟨kind, -, rfl⟩ := Option.map_eq_some_iff.mp h
      exact named_ofNameless_midiOutput kind arguments
  all_goals
    first
    | contradiction
    | cases h
      rfl

namespace Numbering

theorem gives_tieArgument {arguments : List Atom} {arguments' : List Patchbay.Atom}
    (h : Means tables arguments arguments') :
    Gives tables (tieArgument arguments) (Patchbay.tieArgument arguments') := by
  refine .of_proper fun hproper => ?_
  obtain rfl := h.named_reading hproper
  rcases arguments with _ | ⟨first, rest⟩
  · exact .pure (.of_named fun _ hρ => hρ.tie_empty)
  · cases first with
    | symbol name =>
      exact .ask_bind (.of_named fun _ _ => rfl) (gives_tie tables (name.name tables))
    | float value => exact gives_tie tables _
    | _ => exact .pure (.of_named fun _ hρ => hρ.tie_empty)

theorem labelArgument_named (arguments : List Atom) :
    labelArgument tables arguments =
      Patchbay.labelArgument (named tables.reading arguments) := by
  rcases arguments with _ | ⟨first, rest⟩
  · rfl
  · cases first <;> rfl

theorem create_of_not_mem {className : String} (hclass : className ∉ namedClasses)
    (arguments : List Atom) :
    Node.create className arguments =
      pure ((Patchbay.Node.create className (arguments.map Atom.nameless)).map
        Node.ofNameless) := by
  simp only [namedClasses, List.mem_cons, List.not_mem_nil, or_false, not_or] at hclass
  obtain ⟨hr, hreceive, hs, hsend, hprint⟩ := hclass
  unfold Node.create
  split <;> first | contradiction | rfl

theorem gives_createNode {arguments : List Atom} {arguments' : List Patchbay.Atom}
    (h : Means tables arguments arguments') (className : String) :
    Gives tables (Node.create className arguments)
      (Patchbay.Node.create className arguments') := by
  have hreceives : Gives tables
      (tieArgument arguments >>= fun tie => pure (some (Node.receive tie)))
      (some (Patchbay.Node.receive (Patchbay.tieArgument arguments'))) :=
    (gives_tieArgument h).bind fun _ _ _ htie => .pure (htie.map
      (f := fun tie => some (Node.receive tie)) (g := fun tie => some (.receive tie))
      fun _ _ => rfl)
  have hsends : Gives tables (tieArgument arguments >>= fun tie => pure (some (Node.send tie)))
      (some (Patchbay.Node.send (Patchbay.tieArgument arguments'))) :=
    (gives_tieArgument h).bind fun _ _ _ htie => .pure (htie.map
      (f := fun tie => some (Node.send tie)) (g := fun tie => some (.send tie)) fun _ _ => rfl)
  by_cases hclass : className ∈ namedClasses
  · simp only [namedClasses, List.mem_cons, List.not_mem_nil, or_false] at hclass
    rcases hclass with rfl | rfl | rfl | rfl | rfl
    · exact hreceives
    · exact hreceives
    · exact hsends
    · exact hsends
    · exact .ask_bind (h.text (labelArgument_named arguments)) (.pure (.of_named fun _ _ => rfl))
  · rw [create_of_not_mem hclass]
    refine .pure fun hproper ρ hρ => ?_
    rw [← Patchbay.Node.create_anonymous arguments' hclass, h.map_anonymous hproper]
    cases hcreated : Patchbay.Node.create className (arguments.map Atom.nameless) with
    | none => rfl
    | some node => exact congrArg some (named_ofNameless_of_create hclass hcreated)

end Numbering

namespace Reading.Faithful
variable (hρ : ρ.Faithful)
include hρ

theorem listensAt_named (node : Node) : (named ρ node).listensAt = named ρ node.listensAt := by
  cases node with
  | receive tie =>
    show (if (named ρ tie).isEmpty then _ else _) = named ρ (if tie.isEmpty then _ else _)
    rw [hρ.isEmpty_named]
    split <;> rfl
  | gui stored =>
    show (if (named ρ stored.receive).isEmpty then _ else _) =
      named ρ (if stored.receive.isEmpty then _ else _)
    rw [hρ.isEmpty_named]
    split <;> rfl
  | _ => rfl

end Reading.Faithful

theorem isMidiIn_named (node : Node) : (named ρ node).isMidiIn = node.isMidiIn := by
  cases node <;> rfl

theorem isLoadbang_named (node : Node) : (named ρ node).isLoadbang = node.isLoadbang := by
  cases node <;> rfl

theorem answerMidi_named (node : Node) (event : MidiEvent) :
    (named ρ node).answerMidi event = named ρ (node.answerMidi event) := by
  cases node with
  | midiIn kind =>
    show (if kind = event.kind then _ else _) = named ρ (if kind = event.kind then _ else _)
    split
    · rw [named_list, List.map_reverse, List.map_map]
      rfl
    · rfl
  | _ => rfl

/-! ### Answers -/

theorem listInt_named (atoms : Payload) (index : Nat) (waiting : Int32) :
    Patchbay.Node.listInt (named ρ atoms) index waiting = Node.listInt atoms index waiting := by
  unfold Patchbay.Node.listInt Node.listInt
  rw [getElem?_named]
  rcases atoms[index]? with _ | atom
  · rfl
  · exact congrArg Number.truncate (asFloat_named atom)

theorem answerMidiOut_named (kind : MidiKind) (second third : Int32) (inlet : Nat)
    (message : Message) :
    Patchbay.Node.answerMidiOut kind second third inlet (named ρ message) =
      named ρ (Node.answerMidiOut kind second third inlet message) := by
  rcases inlet with _ | inlet
  · cases message with
    | list atoms =>
      have hsecond := listInt_named (ρ := ρ) atoms 1 second
      have hthird := listInt_named (ρ := ρ) atoms 2 third
      rcases atoms with _ | ⟨first, rest⟩
      · rfl
      · have hfirst := asFloat_named (ρ := ρ) first
        show (_, [Patchbay.Emission.midi _]) = (_, [Patchbay.Emission.midi _])
        rw [hsecond, hthird, hfirst]
        rfl
    | _ => rfl
  · have hnumber := number?_named (ρ := ρ) message
    simp only [Patchbay.Node.answerMidiOut, Node.answerMidiOut, hnumber]
    cases message.number? with
    | some value =>
      show (if _ then _ else if _ then _ else _) = named ρ (if _ then _ else if _ then _ else _)
      split_ifs <;> rfl
    | none => rfl

namespace Reading.Faithful
variable (hρ : ρ.Faithful)
include hρ

theorem answerNumber_named (stored : Float32) (message : Message) :
    Patchbay.Node.answerNumber stored (named ρ message) =
      named ρ (Node.answerNumber stored message) := by
  cases message with
  | list atoms =>
    rcases atoms with _ | ⟨first, rest⟩
    · rfl
    · cases first <;> rfl
  | anything selector arguments =>
    show (if named ρ selector = .set then _ else _) = named ρ (if selector = .set then _ else _)
    simp only [hρ.eq_set_iff]
    split
    · rcases arguments with _ | ⟨first, rest⟩
      · rfl
      · exact congrArg (fun value => (Patchbay.Node.number value, [])) (asFloat_named first)
    · rfl
  | _ => rfl

end Reading.Faithful

namespace Numbering
variable {message : Message} {message' : Patchbay.Message}

theorem gives_answerSend {tie : Tie} {tie' : Patchbay.Tie} (htie : Means tables tie tie')
    (hmessage : Means tables message message') (inlet : Nat) :
    Gives tables (Node.answerSend tie inlet message)
      (Patchbay.Node.answerSend tie' inlet message') := by
  have hkept : Gives tables (pure (Node.send tie, ([] : List Emission)))
      (Patchbay.Node.send tie', ([] : List Patchbay.Emission)) :=
    .pure (htie.map (f := fun tie => (Node.send tie, ([] : List Emission)))
      (g := fun tie => (.send tie, [])) fun _ _ => rfl)
  refine .of_proper fun hproper => ?_
  obtain rfl := hmessage.named_reading hproper
  unfold Node.answerSend Patchbay.Node.answerSend
  split
  · cases message with
    | symbol name =>
      refine .ask_bind (.of_named fun _ _ => rfl) ?_
      refine (gives_tie tables (name.name tables)).bind fun _ _ tie htie => ?_
      exact .pure (htie.map (f := fun tie => (Node.send tie, ([] : List Emission)))
        (g := fun tie => (.send tie, [])) fun _ _ => rfl)
    | _ => exact hkept
  · rw [htie.same hproper (f := Tie.isEmpty) fun _ hρ => hρ.isEmpty_named tie]
    split
    · exact hkept
    · refine .pure fun hproper ρ hρ => ?_
      rw [← htie hproper ρ hρ, ← hmessage hproper ρ hρ]
      rfl

theorem gives_answerArithmetic (hmessage : Means tables message message')
    (operation : Arithmetic) (right : Float32) (inlet : Nat) :
    Gives tables (Node.answer (.arithmetic operation (some right)) inlet message)
      (Patchbay.Node.answer (.arithmetic operation (some right)) inlet message') := by
  refine .of_proper fun hproper => ?_
  have hnumber : message'.number? = message.number? :=
    hmessage.same hproper fun _ _ => number?_named message
  simp only [Patchbay.Node.answer, Node.answer, hnumber]
  cases message.number? with
  | none => rcases inlet with _ | _ | inlet <;> exact .pure (.of_named fun _ _ => rfl)
  | some value => rcases inlet with _ | _ | inlet <;> exact .pure (.of_named fun _ _ => rfl)

theorem gives_answerConstant (hmessage : Means tables message message') (stored : Float32)
    (inlet : Nat) :
    Gives tables (Node.answer (.constant stored) inlet message)
      (Patchbay.Node.answer (.constant stored) inlet message') := by
  refine .of_proper fun hproper => ?_
  have hnumber : message'.number? = message.number? :=
    hmessage.same hproper fun _ _ => number?_named message
  simp only [Patchbay.Node.answer, Node.answer, hnumber]
  cases message.number? <;> exact .pure (.of_named fun _ _ => rfl)

theorem gives_answer {node : Node} {node' : Patchbay.Node} (hnode : Means tables node node')
    (hmessage : Means tables message message') (inlet : Nat) :
    Gives tables (node.answer inlet message) (node'.answer inlet message') := by
  refine .of_proper fun hproper => ?_
  obtain rfl := hnode.named_reading hproper
  have hpure {done : Node × List Emission}
      (h : ∀ ρ : Reading, ρ.Faithful →
        (named ρ node).answer inlet (named ρ message) = named ρ done) :
      Gives tables (pure done) ((named tables.reading node).answer inlet message') := by
    refine .pure fun hproper ρ hρ => ?_
    rw [← hnode hproper ρ hρ, ← hmessage hproper ρ hρ, h ρ hρ.toFaithful]
  cases node with
  | send tie =>
    have htie : Means tables tie (named tables.reading tie) :=
      fun hproper ρ hρ => Patchbay.Node.send.inj (hnode hproper ρ hρ)
    exact gives_answerSend htie hmessage inlet
  | print label =>
    obtain rfl := hmessage.named_reading hproper
    exact .ask_bind (.text hmessage (text_message_named message).symm)
      (.pure (.of_named fun _ _ => rfl))
  | messageBox pieces =>
    refine hpure fun ρ hρ => ?_
    have hanswer := hρ.answerMessageBox_named pieces message
    exact congrArg (fun done => (Patchbay.Node.messageBox done.1, done.2)) hanswer
  | number stored => exact hpure fun ρ hρ => hρ.answerNumber_named stored message
  | midiOut kind second third =>
    exact hpure fun ρ _ => answerMidiOut_named kind second third inlet message
  | arithmetic operation right =>
    cases right with
    | none => exact hpure fun _ _ => rfl
    | some right => exact gives_answerArithmetic hmessage operation right inlet
  | constant stored => exact gives_answerConstant hmessage stored inlet
  | gui stored =>
    refine hpure fun ρ hρ => ?_
    have hanswer := hρ.answer_gui_named stored message
    exact congrArg (fun done => (Patchbay.Node.gui done.1, done.2)) hanswer
  | _ => exact hpure fun _ _ => rfl

end Numbering

end Patchbay.Numbered
