import Patchbay.Proofs.ReadObjects

/-!
# Patches read by names

A patch text is read the same whatever has been numbered before: every word that is a name
gets a number which means this name, and an object is created from numbers as it is from
names.
-/

namespace Patchbay.Numbered

variable {ρ : Reading} {tables : Tables}

namespace Numbering

/-! ## Boxes -/

theorem gives_place {node : Node} {node' : Patchbay.Node} (h : Means tables node node')
    (className text : String) (bounds : Bounds) :
    Gives tables (Canvas.place className text bounds node)
      { name := ⟨className⟩, text, bounds, node := node' } := by
  refine (gives_symbol tables className).bind fun later hlater name hname => ?_
  refine .pure fun hproper ρ hρ => ?_
  rw [← (h.mono hlater) hproper ρ hρ, ← hname hproper ρ hρ]
  rfl

/-- A box of a class without names is the box of the same text. -/
theorem gives_placeNameless (tables : Tables) {box : Patchbay.PatchObject}
    (h : ∀ ρ : Reading, named ρ (Node.ofNameless box.node) = box.node) :
    Gives tables (Canvas.placeNameless box) box :=
  gives_place (.of_named fun ρ _ => h ρ) box.name.name box.text box.bounds

theorem named_ofNameless_entryBox (canvas : Canvas) (className : String) (record : Record) :
    named ρ (Node.ofNameless (canvas.entryBox className record).node) =
      (canvas.entryBox className record).node := by
  simp only [Patchbay.Canvas.entryBox]
  split <;> rfl

theorem gives_object (tables : Tables) (canvas : Patchbay.Canvas) (record : Record) :
    Gives tables (Canvas.object canvas record) (canvas.object record) := by
  unfold Canvas.object Patchbay.Canvas.object
  obtain ⟨body, columns⟩ := splitColumns record.body
  dsimp only
  have hwords : ((body.drop 1).filterMap fun token =>
      token.word?.map fun word => Patchbay.expandWord word canvas.dollarZero) =
      ((body.drop 1).filterMap Token.word?).map fun word =>
        Patchbay.expandWord word canvas.dollarZero :=
    List.map_filterMap.symm
  rw [hwords]
  refine (Gives.each (fun later word _ => gives_expandWord later word canvas.dollarZero) _).bind
    fun first _ arguments harguments => ?_
  have hplace {later : Tables} {node : Node} {node' : Patchbay.Node}
      (hnode : Means later node node') (bounds : Bounds) (diagnostic : Option String) :
      Gives later
        (Canvas.place ((headWord? body).getD "") (showTokens body) bounds node >>= fun box =>
          pure (box, diagnostic))
        (({ name := ⟨(headWord? body).getD ""⟩, text := showTokens body, bounds
            node := node' } : Patchbay.PatchObject), diagnostic) :=
    (gives_place hnode _ _ _).bind fun _ _ _ hbox =>
      .pure (hbox.prod (.of_named fun _ _ => named_text? _))
  cases GuiKind.ofClass? ((headWord? body).getD "") with
  | some kind =>
    dsimp only
    refine (gives_createGui harguments kind _ _ _).bind fun second _ gui hgui => ?_
    refine .of_proper fun hproper => ?_
    generalize Patchbay.Gui.create kind _ _ _ _ = gui' at hgui ⊢
    have hwidth : gui'.width = gui.body.width :=
      hgui.same hproper (f := fun gui => gui.body.width) fun _ _ => rfl
    have hheight : gui'.height = gui.body.height :=
      hgui.same hproper (f := fun gui => gui.body.height) fun _ _ => rfl
    rw [hwidth, hheight]
    exact hplace (hgui.map (f := Node.gui) (g := .gui) fun _ _ => rfl) _ none
  | none =>
    dsimp only
    split
    · exact hplace (.of_named fun _ _ => rfl) _ none
    · refine (gives_createNode harguments _).bind fun second _ created hcreated => ?_
      refine .of_proper fun hproper => ?_
      obtain hsame := hcreated.named_reading hproper
      rw [← hsame] at hcreated ⊢
      cases created with
      | some node =>
        exact hplace (fun hproper ρ hρ => Option.some.inj (hcreated hproper ρ hρ)) _ none
      | none => exact hplace (.of_named fun _ _ => rfl) _ _

theorem gives_messageBox (tables : Tables) (canvas : Patchbay.Canvas) (record : Record) :
    Gives tables (Canvas.messageBox canvas record) (canvas.messageBox record) := by
  refine (gives_readPieces tables record.body canvas.dollarZero).bind
    fun later _ pieces hpieces => ?_
  exact gives_place (hpieces.map (f := Node.messageBox) (g := .messageBox) fun _ _ => rfl) _ _ _

/-! ## Records -/

section
variable {reader : PatchReader} {reader' : Patchbay.PatchReader}

theorem means_add (hreader : Means tables reader reader') {object : PatchObject}
    {object' : Patchbay.PatchObject} (hobject : Means tables object object')
    {diagnostic diagnostic' : Option String} (hdiagnostic : Means tables diagnostic diagnostic') :
    Means tables (reader.add object diagnostic) (reader'.add object' diagnostic') := by
  intro hproper ρ hρ
  rw [← hreader hproper ρ hρ, ← hobject hproper ρ hρ, ← hdiagnostic hproper ρ hρ, named_text?]
  simp only [PatchReader.add, named, List.map_append, List.map_cons, List.map_nil]
  rfl

theorem gives_add (hreader : Means tables reader reader') {place : Numbering PatchObject}
    {object' : Patchbay.PatchObject} (hplace : Gives tables place object') :
    Gives tables (place >>= fun object => pure (reader.add object none))
      (reader'.add object' none) :=
  hplace.bind fun _ hlater _ hobject =>
    .pure (means_add (hreader.mono hlater) hobject (.of_named fun _ _ => rfl))

theorem gives_addNameless (hreader : Means tables reader reader') {box : Patchbay.PatchObject}
    (h : ∀ ρ : Reading, named ρ (Node.ofNameless box.node) = box.node) :
    Gives tables (reader.addNameless box) (reader'.add box none) :=
  gives_add hreader (gives_placeNameless tables h)

theorem means_connect (hreader : Means tables reader reader') (canvas : Patchbay.Canvas)
    (record : Record) :
    Means tables (PatchReader.connect canvas reader record)
      (Patchbay.PatchReader.connect canvas reader' record) := by
  intro hproper ρ hρ
  rw [← hreader hproper ρ hρ]
  unfold PatchReader.connect Patchbay.PatchReader.connect
  cases Connection.ofRecord? record <;> rfl

theorem gives_stepOuter (hreader : Means tables reader reader') (canvas : Patchbay.Canvas)
    (record : Record) :
    Gives tables (PatchReader.stepOuter canvas reader record)
      (Patchbay.PatchReader.stepOuter canvas reader' record) := by
  -- Only the reader of numbers is unfolded before its cases are split: the other one follows
  -- from the word that has been found.
  unfold PatchReader.stepOuter
  by_cases hbox : record.word? 0 = some "#X"
  · rw [if_pos hbox]
    have hentry (className : String) :
        Gives tables (reader.addNameless (canvas.entryBox className record))
          (reader'.add (canvas.entryBox className record) none) :=
      gives_addNameless hreader fun _ => named_ofNameless_entryBox canvas className record
    split
    · rename_i hword
      simp only [Patchbay.PatchReader.stepOuter, if_pos hbox, hword]
      refine (gives_object tables canvas record).bind fun later hlater box hbox => ?_
      exact .pure (means_add (hreader.mono hlater) hbox.fst hbox.snd)
    · rename_i hword
      simp only [Patchbay.PatchReader.stepOuter, if_pos hbox, hword]
      exact gives_add hreader (gives_messageBox tables canvas record)
    · rename_i hword
      simp only [Patchbay.PatchReader.stepOuter, if_pos hbox, hword]
      exact gives_addNameless hreader fun _ => rfl
    · rename_i hword
      simp only [Patchbay.PatchReader.stepOuter, if_pos hbox, hword]
      exact hentry "floatatom"
    · rename_i hword
      simp only [Patchbay.PatchReader.stepOuter, if_pos hbox, hword]
      exact hentry "symbolatom"
    · rename_i hword
      simp only [Patchbay.PatchReader.stepOuter, if_pos hbox, hword]
      exact hentry "listbox"
    · rename_i hword
      simp only [Patchbay.PatchReader.stepOuter, if_pos hbox, hword]
      exact .pure (means_connect hreader canvas record)
    · unfold Patchbay.PatchReader.stepOuter
      rw [if_pos hbox]
      split <;> first | contradiction | exact .pure hreader
  · rw [if_neg hbox, Patchbay.PatchReader.stepOuter, if_neg hbox]
    exact .pure hreader

theorem gives_step (hreader : Means tables reader reader') (canvas : Patchbay.Canvas)
    (record : Record) :
    Gives tables (PatchReader.step canvas reader record)
      (Patchbay.PatchReader.step canvas reader' record) := by
  refine .of_proper fun hproper => ?_
  have hdepth : reader'.depth = reader.depth := hreader.same hproper fun _ _ => rfl
  have hmoved (depth : Nat) :
      Means tables { reader with depth } { reader' with depth } := by
    intro hproper ρ hρ
    rw [← hreader hproper ρ hρ]
    rfl
  unfold PatchReader.step Patchbay.PatchReader.step
  rw [hdepth]
  cases Patchbay.PatchReader.opensCanvas record with
  | true => exact .pure (hmoved (reader.depth + 1))
  | false =>
    simp only [Bool.false_eq_true, ↓reduceIte]
    cases reader.depth with
    | zero => exact gives_stepOuter hreader canvas record
    | succ depth =>
      cases Patchbay.PatchReader.closesCanvas record with
      | false => exact .pure hreader
      | true =>
        simp only [↓reduceIte]
        split
        · exact gives_addNameless (hmoved depth) fun _ => rfl
        · exact .pure (hmoved depth)

end

/-! ## Patch texts -/

/-- Reading a patch text gives the patch of its names, or the failure that reading gives. -/
theorem gives_readPatch (tables : Tables) (name path text : String) (dollarZero : Int32) :
    Gives tables (readPatch name path text dollarZero)
      (Patchbay.readPatch name path text dollarZero) := by
  unfold readPatch Patchbay.readPatch
  cases readRecords text with
  | nil => exact .pure (.of_named fun _ _ => rfl)
  | cons header records =>
    dsimp only
    cases Patchbay.PatchReader.opensCanvas header with
    | false => exact .pure (.of_named fun _ _ => rfl)
    | true =>
      simp only [Bool.not_true, Bool.false_eq_true, ↓reduceIte]
      refine (Gives.foldlM (y := ({} : Patchbay.PatchReader))
        (fun later _ record _ reader reader' hreader => gives_step hreader _ record)
        (.of_named fun _ _ => rfl)).bind fun last _ reader hreader => ?_
      refine .pure fun hproper ρ hρ => ?_
      have hcount : (named ρ reader).objects.length = reader.objects.length := List.length_map _
      rw [← hreader hproper ρ hρ, hcount]
      exact congrArg (fun diagnostics => Except.ok (_, diagnostics)) (named_texts _)

end Numbering

end Patchbay.Numbered
