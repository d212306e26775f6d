import Mathlib.Data.List.Basic
import Patchbay.Proofs.BoxTexts
import Patchbay.Proofs.Loading
import Patchbay.Proofs.OpenPatches

/-!
# What message boxes hold

A message box holds what its text reads as, until a `set` replaces it. Reading leaves
out the pieces that have nothing in them, so a box with an empty text is silent. A `set`
always leaves one piece, without atoms if it came without arguments, and a box that has
been emptied in this way answers with a bang.

## Implementation notes

On the way through some work the content of a box is a function of the sets that the box
is asked to answer. The content at the end of an operation and the emptied boxes in the
middle of one are both read off that function.
-/

namespace Patchbay
namespace Piece

/-- What a `set` leaves in a message box. -/
def ofSet (arguments : Payload) : List Piece := [{ atoms := arguments.map .literal }]

/-- What a message box can hold: what its text reads as, or what a `set` has left. -/
inductive Content (dollarZero : Int32) (text : String) : List Piece → Prop
  | read (tokens : List Token) (h : showTokens tokens = text) :
    Content dollarZero text (readPieces tokens dollarZero)
  | replaced (arguments : Payload) : Content dollarZero text (ofSet arguments)

theorem atoms_ne_nil_of_mem_readPieces {tokens : List Token} {dollarZero : Int32} {piece : Piece}
    (h : piece ∈ readPieces tokens dollarZero) : piece.atoms ≠ [] := by
  have hfilled := (List.mem_filter.mp h).2
  intro hempty
  rw [hempty] at hfilled
  cases hfilled

/-- Only a `set` without arguments leaves a piece without atoms. -/
theorem eq_of_mem_ofSet {arguments : Payload} {piece : Piece} (h : piece ∈ ofSet arguments)
    (hempty : piece.atoms = []) : piece = {} ∧ arguments = [] := by
  rw [List.mem_singleton.mp h] at hempty ⊢
  have harguments : arguments = [] := List.map_eq_nil_iff.mp hempty
  rw [harguments]
  exact ⟨rfl, rfl⟩

/-- A piece without atoms is alone in its box. -/
theorem Content.filled_or {dollarZero : Int32} {text : String} {pieces : List Piece}
    (h : Content dollarZero text pieces) :
    (∀ piece ∈ pieces, piece.atoms ≠ []) ∨ pieces = [{}] := by
  cases h with
  | read tokens _ => exact Or.inl fun _ => atoms_ne_nil_of_mem_readPieces
  | replaced arguments =>
    by_cases harguments : arguments = []
    · right
      rw [harguments]
      rfl
    · left
      intro piece hpiece hempty
      exact harguments (eq_of_mem_ofSet hpiece hempty).2

theorem Content.answer {dollarZero : Int32} {text : String} {pieces : List Piece}
    (h : Content dollarZero text pieces) (message : Message) :
    Content dollarZero text (answerMessageBox pieces message).1 := by
  cases message with
  | anything selector arguments =>
    simp only [answerMessageBox]
    split
    · exact .replaced arguments
    · exact h
  | _ => exact h

end Piece

/-! ## In a patch -/

theorem Node.exists_messageBox_of_answer {node : Node} {inlet : Nat} {message : Message}
    {pieces : List Piece} (h : (node.answer inlet message).1 = .messageBox pieces) :
    ∃ old, node = .messageBox old ∧ pieces = (answerMessageBox old message).1 := by
  have houtline : node.outline = .messageBox [] := by
    rw [← Node.outline_answer node inlet message, h]
    rfl
  have hold : ∃ old, node = .messageBox old := by
    cases node with
    | messageBox old => exact ⟨old, rfl⟩
    | arithmetic operation right => cases right <;> cases houtline
    | _ => cases houtline
  obtain ⟨old, rfl⟩ := hold
  exact ⟨old, rfl, (Node.messageBox.inj h).symm⟩

theorem Node.create_ne_messageBox (className : String) (arguments : List Atom)
    (pieces : List Piece) : Node.create className arguments ≠ some (.messageBox pieces) := by
  unfold create
  split <;> try exact fun h => by cases h
  · split
    · exact fun h => by cases h
    · intro h
      obtain ⟨kind, -, hkind⟩ := Option.map_eq_some_iff.mp h
      cases kind <;> cases hkind

namespace Canvas

theorem node_object_ne_messageBox (canvas : Canvas) (record : Record) (pieces : List Piece) :
    (canvas.object record).1.node ≠ .messageBox pieces := by
  unfold object
  simp only
  split
  · exact fun h => by cases h
  · split
    · exact fun h => by cases h
    · split
      · rename_i node hnode
        rintro rfl
        exact Node.create_ne_messageBox _ _ _ hnode
      · exact fun h => by cases h

/-- A box made from a record holds what the text of the record reads as. -/
theorem content_box (canvas : Canvas) (record : Record) {pieces : List Piece}
    (h : (canvas.box record).node = .messageBox pieces) :
    Piece.Content canvas.dollarZero (canvas.box record).text pieces := by
  unfold box at h ⊢
  split at h
  · exact absurd h (canvas.node_object_ne_messageBox record pieces)
  · cases h
    exact .read record.body rfl
  all_goals simp [comment, entryBox, nested] at h

end Canvas

/-- Every message box of a patch holds what its text reads as, or what a `set` has left. -/
def Patch.HasContents (patch : Patch) : Prop :=
  ∀ object ∈ patch.objects, ∀ pieces, object.node = .messageBox pieces →
    Piece.Content patch.dollarZero object.text pieces

/-- Reading a patch gives its boxes their contents, and no answer takes them away. -/
theorem Patch.lasting_hasContents : Patch.Lasting Patch.HasContents where
  read := by
    intro name path text dollarZero patch diagnostics hread object hobject pieces hpieces
    obtain ⟨hnumber, hobjects⟩ := objects_of_readPatch hread
    rw [hobjects] at hobject
    obtain ⟨record, -, rfl⟩ := List.mem_map.mp hobject
    exact patch.canvas.content_box record hpieces
  answer := by
    intro patch h index node hnode inlet message object hobject pieces hpieces
    obtain ⟨old, hold, rfl⟩ := Option.map_eq_some_iff.mp hnode
    obtain ⟨position, hposition⟩ := List.mem_iff_getElem?.mp hobject
    simp only [Patch.setNode, List.getElem?_modify] at hposition
    split at hposition
    · rename_i hindex
      rw [← hindex, hold] at hposition
      cases hposition
      obtain ⟨former, hformer, rfl⟩ := Node.exists_messageBox_of_answer hpieces
      exact (h old (List.mem_of_getElem? hold) former hformer).answer message
    · have hmem : object ∈ patch.objects := by
        apply List.mem_of_getElem?
        simpa using hposition
      exact h object hmem pieces hpieces

/-! ## On the way -/

namespace Work

/-- The arguments of the `set` that the object at a place answers in the next step. -/
def replaced? (place : NodeRef) (work : Work) : Option Payload :=
  match work.asked? with
  | some (target, _, .anything selector arguments) =>
    if target = place ∧ selector = .set then some arguments else none
  | _ => none

variable {place : NodeRef} {pieces : List Piece}

/-- A step changes the content of a box by a `set` to it, and in no other way. -/
theorem step_content (listeners : Listeners) {work : Work}
    (h : work.dispatch.slots.node? place = some (.messageBox pieces)) :
    (step listeners work).dispatch.slots.node? place =
      some (.messageBox (((work.replaced? place).map Piece.ofSet).getD pieces)) := by
  rw [step_slots, replaced?]
  cases work.asked? with
  | none => exact h
  | some asked =>
    obtain ⟨target, inlet, message⟩ := asked
    simp only [Slots.node?_answered]
    by_cases htarget : target = place
    · rw [if_pos htarget.symm, h, Option.map_some]
      cases message with
      | anything selector arguments =>
        by_cases hset : selector = .set
        · simp [Node.answer, answerMessageBox, htarget, hset, Piece.ofSet]
        · simp [Node.answer, answerMessageBox, hset]
      | _ => rfl
    · rw [if_neg (Ne.symm htarget), h]
      cases message <;> simp [htarget]

/-- However far the work has come, a box holds what the latest `set` to it has left, and what
it held at first if there was none. -/
theorem iterate_content (listeners : Listeners) (count : Nat) (work : Work)
    (h : work.dispatch.slots.node? place = some (.messageBox pieces)) :
    ((step listeners)^[count] work).dispatch.slots.node? place =
      some (.messageBox (((collect listeners (replaced? place) count work).getLast?.map
        Piece.ofSet).getD pieces)) := by
  induction count generalizing work pieces with
  | zero => exact h
  | succ count ih =>
    rw [Function.iterate_succ_apply, ih _ (step_content listeners h), collect,
      List.getLast?_append]
    cases (collect listeners (replaced? place) count (step listeners work)).getLast? with
    | some latest => rfl
    | none => cases work.replaced? place <;> rfl

end Work

/-! ## In every session -/

/-- The message box at a place holds some pieces, and this is all there is to it. -/
structure Instance.Contains (inst : Instance) (place : NodeRef) (pieces : List Piece) : Prop where
  /-- The pieces are those of the text that the box was loaded with, or those of a `set`. -/
  origin : ∃ patch object, inst.engine.slots.patchAt place.slot = some patch ∧
    patch.objects[place.object]? = some object ∧
    Piece.Content patch.dollarZero object.text pieces
  /-- No piece is without atoms, unless it is all that the box holds. -/
  filled_or : (∀ piece ∈ pieces, piece.atoms ≠ []) ∨ pieces = [{}]
  /-- A box without pieces is silent, and every other box says something. -/
  silent_iff : ∀ inlet message, message.isSet = false →
    (((Node.messageBox pieces).answer inlet message).2 = [] ↔ pieces = [])
  /-- A box that has been emptied answers with one bang, whatever it is asked. -/
  emptied : pieces = [{}] → ∀ inlet message, message.isSet = false →
    ((Node.messageBox pieces).answer inlet message).2 = [.outlet 0 .bang]
  /-- Wherever some tasks have come to, the latest `set` to the box tells its content. -/
  replaced : ∀ tasks count,
    ((Work.step inst.engine.listeners)^[count]
        ⟨inst.engine.start, tasks⟩).dispatch.slots.node? place =
      some (.messageBox (((Work.collect inst.engine.listeners (Work.replaced? place) count
        ⟨inst.engine.start, tasks⟩).getLast?.map Piece.ofSet).getD pieces))
  /-- A piece without atoms comes from a `set` without arguments, unless it was there before. -/
  emptied_by : ∀ tasks count after piece,
    ((Work.step inst.engine.listeners)^[count]
        ⟨inst.engine.start, tasks⟩).dispatch.slots.node? place = some (.messageBox after) →
      piece ∈ after → piece.atoms = [] → piece ∉ pieces →
        (Work.collect inst.engine.listeners (Work.replaced? place) count
          ⟨inst.engine.start, tasks⟩).getLast? = some []

/-- In every session each message box of an open patch holds what its text reads as, where
nothing is empty, or what the latest `set` has left. Nothing but a `set` without arguments
leaves an empty piece, and the box that holds it answers with a bang. -/
theorem Rack.Reachable.contains {rack : Rack} (h : rack.Reachable) {position : Nat}
    {inst : Instance} (hinst : rack.instance? position = some inst) {place : NodeRef}
    {pieces : List Piece}
    (hbox : inst.engine.slots.node? place = some (.messageBox pieces)) :
    inst.Contains place pieces := by
  obtain ⟨patch, hpatch, hnode⟩ := Option.bind_eq_some_iff.mp hbox
  obtain ⟨object, hobject, hpieces⟩ := Option.map_eq_some_iff.mp hnode
  have hcontent : Piece.Content patch.dollarZero object.text pieces :=
    h.every_open Patch.lasting_hasContents hinst place.slot patch hpatch object
      (List.mem_of_getElem? hobject) pieces hpieces
  have hreplaced (tasks : List Task) (count : Nat) :=
    Work.iterate_content inst.engine.listeners count ⟨inst.engine.start, tasks⟩ hbox
  constructor
  · exact ⟨patch, object, hpatch, hobject, hcontent⟩
  · exact hcontent.filled_or
  · intro inlet message hset
    simp only [Node.answer, answerMessageBox_of_isSet hset, List.map_eq_nil_iff]
  · rintro rfl inlet message hset
    simp only [Node.answer, answerMessageBox_of_isSet hset]
    rfl
  · exact hreplaced
  · intro tasks count after piece hafter hpiece hempty hnew
    rw [hreplaced, Option.some.injEq, Node.messageBox.injEq] at hafter
    cases hlatest : (Work.collect inst.engine.listeners (Work.replaced? place) count
        ⟨inst.engine.start, tasks⟩).getLast? with
    | none =>
      rw [hlatest] at hafter
      rw [← hafter] at hpiece
      exact absurd hpiece hnew
    | some latest =>
      rw [hlatest] at hafter
      rw [← hafter] at hpiece
      rw [(Piece.eq_of_mem_ofSet hpiece hempty).2]

/-- A session with two message boxes: one has a text and is emptied by a message, the other
was loaded without one. -/
def emptying : List HostAction :=
  [.create none,
    .setFiles
      { entries := [(["a.pd"], .file (.text
          ("#N canvas 0 0 9 9 10;\n#X obj 0 0 r a;\n#X msg 0 0 hello;\n" ++
            "#X obj 0 0 print got;\n#X obj 0 0 r b;\n#X msg 0 0;\n" ++
            "#X connect 0 0 1 0;\n#X connect 1 0 2 0;\n" ++
            "#X connect 3 0 4 0;\n#X connect 4 0 2 0;\n")))] },
    .request 0 (.setConsole (some (.raw 0))),
    .request 0 (.load "/a.pd" ""),
    .request 0 (.send ⟨"a"⟩ (.anything .set []))]

/-- What the session comes to: the text of one box is an empty piece, and of the other nothing.
Asked for its content, the first posts a bang and the second posts nothing. -/
theorem exists_of_session_emptying :
    ∃ rack inst, ({} : Rack).session emptying = some rack ∧ rack.instance? 0 = some inst ∧
      inst.engine.slots.node? { slot := 0, object := 1 } = some (.messageBox [{}]) ∧
      inst.engine.slots.node? { slot := 0, object := 4 } = some (.messageBox []) ∧
      (["a", "b"].map fun name =>
          (rack.act (.request 0 (.send ⟨name⟩ .bang))).map Outcome.calls) =
        [some [.post 0 .normal "got: bang"], some []] := by
  have hsession : (({} : Rack).session emptying).any (fun rack =>
      (rack.instance? 0).any fun inst => decide
        (inst.engine.slots.node? { slot := 0, object := 1 } = some (.messageBox [{}]) ∧
          inst.engine.slots.node? { slot := 0, object := 4 } = some (.messageBox []) ∧
          (["a", "b"].map fun name =>
              (rack.act (.request 0 (.send ⟨name⟩ .bang))).map Outcome.calls) =
            [some [.post 0 .normal "got: bang"], some []])) = true := by
    rw [Rack.session_of_load emptying 3 ["a.pd"] rfl rfl rfl
      (append_eq_ofList (append_eq_ofList (append_eq_ofList rfl rfl) rfl) rfl)
      (by decide), readPatch, readRecords_ofList]
    decide +kernel
  obtain ⟨rack, hrack, hfound⟩ := (Option.any_eq_true _ _).mp hsession
  obtain ⟨inst, hinst, hseen⟩ := (Option.any_eq_true _ _).mp hfound
  exact ⟨rack, inst, hrack, hinst, of_decide_eq_true hseen⟩

/-- One box holds an empty piece now, the other still holds nothing. -/
theorem contains_emptying :
    ∃ rack : Rack, ∃ inst, rack.Reachable ∧ rack.instance? 0 = some inst ∧
      inst.engine.slots.node? { slot := 0, object := 1 } = some (.messageBox [{}]) ∧
      inst.Contains { slot := 0, object := 1 } [{}] ∧
      inst.engine.slots.node? { slot := 0, object := 4 } = some (.messageBox []) ∧
      inst.Contains { slot := 0, object := 4 } [] := by
  obtain ⟨rack, inst, hsession, hinst, hemptied, hblank, -⟩ := exists_of_session_emptying
  have hrack := Rack.Reachable.fresh.session hsession
  exact ⟨rack, inst, hrack, hinst, hemptied, hrack.contains hinst hemptied, hblank,
    hrack.contains hinst hblank⟩

/-- Asked for its content, the box that has been emptied posts a bang, and the box that was
loaded without a text posts nothing. -/
theorem emptied_box_bangs :
    (["a", "b"].map fun name => (({} : Rack).session emptying).bind fun rack =>
        (rack.act (.request 0 (.send ⟨name⟩ .bang))).map Outcome.calls) =
      [some [.post 0 .normal "got: bang"], some []] := by
  obtain ⟨rack, inst, hsession, -, -, -, hposts⟩ := exists_of_session_emptying
  simpa only [hsession, Option.bind_some] using hposts

end Patchbay
