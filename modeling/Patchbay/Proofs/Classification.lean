import Mathlib.Data.List.Basic
import Patchbay.Host.Instance

/-!
# How messages are classified

Five selectors have a message kind of their own, `pointer` only in front of a pointer. A
message of such a kind keeps as much of its arguments as the kind can hold, and every other
message keeps all that it was made of. Taken apart and classified once more, a message that
classification has made comes back as it was. The messages that do not are those that carry
a reserved selector without having its kind.
-/

namespace Patchbay
namespace Message

/-- The kind that is reserved for a selector in front of some arguments. -/
inductive Reserved : MessageKind → Symbol → Payload → Prop
  | bang (arguments : Payload) : Reserved .bang .bang arguments
  | float (arguments : Payload) : Reserved .float .float arguments
  | symbol (arguments : Payload) : Reserved .symbol .symbol arguments
  | list (arguments : Payload) : Reserved .list .list arguments
  | pointer (address : Nat) (rest : Payload) :
      Reserved .pointer .pointer (.pointer address :: rest)

/-- A message that comes back when it is taken apart and classified. -/
def IsCanonical (message : Message) : Prop :=
  classify message.selector message.arguments = message

variable {kind : MessageKind} {selector : Symbol} {arguments : Payload}

theorem asPointer_firstOrEmpty_eq_some_iff {address : Nat} :
    arguments.firstOrEmpty.asPointer = some address ↔
      ∃ rest, arguments = .pointer address :: rest := by
  cases arguments with
  | nil => simp [Payload.firstOrEmpty, Atom.asPointer]
  | cons atom rest => cases atom <;> simp [Payload.firstOrEmpty, Atom.asPointer]

theorem exists_reserved_iff :
    (∃ kind, Reserved kind selector arguments) ↔
      selector ∈ [Symbol.bang, .float, .symbol, .list] ∨
        selector = .pointer ∧ ∃ address rest, arguments = .pointer address :: rest := by
  constructor
  · rintro ⟨kind, h⟩
    cases h with
    | pointer address rest => exact .inr ⟨rfl, address, rest, rfl⟩
    | _ => exact .inl (by simp)
  · rintro (h | ⟨rfl, address, rest, rfl⟩)
    · simp only [List.mem_cons, List.not_mem_nil, or_false] at h
      rcases h with rfl | rfl | rfl | rfl
      · exact ⟨.bang, .bang arguments⟩
      · exact ⟨.float, .float arguments⟩
      · exact ⟨.symbol, .symbol arguments⟩
      · exact ⟨.list, .list arguments⟩
    · exact ⟨.pointer, .pointer address rest⟩

/-- No kind is reserved for other selectors, nor for `pointer` without a pointer. -/
theorem not_exists_reserved_iff :
    (¬ ∃ kind, Reserved kind selector arguments) ↔ selector.isReserved = false ∨
      selector = .pointer ∧ ∀ address rest, arguments ≠ .pointer address :: rest := by
  have hpointer : Symbol.pointer ∉ [Symbol.bang, .float, .symbol, .list] := by decide
  have hreserved : selector.isReserved ↔
      selector ∈ [Symbol.bang, .float, .symbol, .list] ∨ selector = .pointer := by
    simp only [Symbol.isReserved, Symbol.reservedSelectors, List.contains_iff_mem, List.mem_cons,
      List.not_mem_nil, or_false, or_assoc]
  rw [exists_reserved_iff, ← Bool.not_eq_true, hreserved]
  by_cases h : selector = .pointer
  · subst h
    simp [hpointer]
  · simp [h]

theorem Reserved.kind_classify (h : Reserved kind selector arguments) :
    (classify selector arguments).kind = kind := by
  cases h <;> rfl

theorem Reserved.ne_anything (h : Reserved kind selector arguments) : kind ≠ .anything := by
  rintro rfl
  cases h

/-- A message without a reserved kind keeps its selector and all of its arguments. -/
theorem classify_of_free (h : ¬ ∃ kind, Reserved kind selector arguments) :
    classify selector arguments = .anything selector arguments := by
  rw [exists_reserved_iff] at h
  obtain ⟨hfour, hpointer⟩ := not_or.mp h
  simp only [List.mem_cons, List.not_mem_nil, or_false, not_or] at hfour
  obtain ⟨hbang, hfloat, hsymbol, hlist⟩ := hfour
  unfold classify
  rw [if_neg hbang, if_neg hfloat, if_neg hsymbol, if_neg hlist]
  split
  · rename_i hselector
    split
    · rename_i address haddress
      obtain ⟨rest, harguments⟩ := asPointer_firstOrEmpty_eq_some_iff.mp haddress
      exact absurd ⟨hselector, address, rest, harguments⟩ hpointer
    · rfl
  · rfl

theorem isCanonical_of_kind {message : Message} (h : message.kind ≠ .anything) :
    message.IsCanonical := by
  cases message with
  | anything => exact absurd rfl h
  | _ => rfl

theorem isCanonical_anything_iff :
    (anything selector arguments).IsCanonical ↔ ¬ ∃ kind, Reserved kind selector arguments := by
  constructor
  · rintro h ⟨kind, hreserved⟩
    have hkind : (classify selector arguments).kind = .anything := congrArg Message.kind h
    exact hreserved.ne_anything (hreserved.kind_classify.symm.trans hkind)
  · exact classify_of_free

theorem isCanonical_classify (selector : Symbol) (arguments : Payload) :
    (classify selector arguments).IsCanonical := by
  by_cases h : ∃ kind, Reserved kind selector arguments
  · obtain ⟨kind, hreserved⟩ := h
    apply isCanonical_of_kind
    rw [hreserved.kind_classify]
    exact hreserved.ne_anything
  · rw [classify_of_free h]
    exact isCanonical_anything_iff.mpr h

theorem isCanonical_ofAtoms (atoms : Payload) : (ofAtoms atoms).IsCanonical := by
  unfold ofAtoms
  split
  · rfl
  · rfl
  · rfl
  · exact isCanonical_classify _ _
  · rfl

end Message

/-- What a send from outside tells the host comes last: every bound sink receives the message. -/
theorem Instance.exists_send_calls (inst : Instance) (tie : Tie) (message : Message) :
    ∃ earlier, (inst.send tie message).2 =
      earlier ++ (inst.hooks.bound tie).flatMap (MessageSink.receive tie message) := by
  simp only [send, settle, Engine.send, Engine.dispatch, Dispatch.send, Dispatch.sendTo,
    Dispatch.perform, Array.toList_push, Hooks.run, List.flatMap_append, List.flatMap_singleton]
  exact ⟨_, rfl⟩

/-- Classification is canonical. A message is lost on the way apart and back exactly if it
carries a reserved selector as `anything`. What no kind is reserved for reaches the hook for
anything with its selector and all of its arguments, and what a kind is reserved for reaches
the hook of this kind and no other, at the end of every send to a bound tie. -/
theorem Message.classification_canonical :
    (∀ selector arguments, (classify selector arguments).IsCanonical) ∧
      (∀ atoms, (ofAtoms atoms).IsCanonical) ∧
      (∀ message : Message, ¬ message.IsCanonical ↔ ∃ selector arguments,
        message = .anything selector arguments ∧
          (selector ∈ [Symbol.bang, .float, .symbol, .list] ∨
            selector = .pointer ∧ ∃ address rest, arguments = .pointer address :: rest)) ∧
      (∀ (inst : Instance) tie message, ∃ earlier, (inst.send tie message).2 =
        earlier ++ (inst.hooks.bound tie).flatMap (MessageSink.receive tie message)) ∧
      (∀ selector arguments,
        selector.isReserved = false ∨
            selector = .pointer ∧ (∀ address rest, arguments ≠ .pointer address :: rest) →
          ∀ label wanted tie,
            (MessageSink.kinds label wanted).receive tie (classify selector arguments) =
              if .anything ∈ wanted then
                [.kindMessage label tie (.anything selector arguments)]
              else []) ∧
      ∀ kind selector arguments, Reserved kind selector arguments →
        ∀ label wanted tie,
          (MessageSink.kinds label wanted).receive tie (classify selector arguments) =
            if kind ∈ wanted then
              [.kindMessage label tie (classify selector arguments)]
            else [] := by
  refine ⟨isCanonical_classify, isCanonical_ofAtoms, ?_, Instance.exists_send_calls, ?_, ?_⟩
  · intro message
    constructor
    · intro h
      cases message with
      | anything selector arguments =>
        rw [isCanonical_anything_iff, not_not, exists_reserved_iff] at h
        exact ⟨selector, arguments, rfl, h⟩
      | _ => exact absurd rfl h
    · rintro ⟨selector, arguments, rfl, h⟩
      rw [isCanonical_anything_iff, not_not, exists_reserved_iff]
      exact h
  · intro selector arguments h label wanted tie
    have hfree := not_exists_reserved_iff.mpr h
    simp only [classify_of_free hfree, MessageSink.receive, kind, List.contains_iff_mem]
  · intro kind selector arguments h label wanted tie
    simp only [MessageSink.receive, h.kind_classify, List.contains_iff_mem]

/-- Behind `pointer`, a number is kept as an argument and a pointer makes a message of its own
kind, which a hook for the two kinds tells apart. -/
theorem classification_canonical_pointers :
    ¬ (Message.anything .pointer [.pointer 7, .empty]).IsCanonical ∧
      (MessageSink.kinds "a" [.pointer, .anything]).receive ⟨"t"⟩
          (Message.classify .pointer [.float 1, .empty]) =
        [.kindMessage "a" ⟨"t"⟩ (.anything .pointer [.float 1, .empty])] ∧
      (MessageSink.kinds "a" [.pointer, .anything]).receive ⟨"t"⟩
          (Message.classify .pointer [.pointer 7, .empty]) =
        [.kindMessage "a" ⟨"t"⟩ (.pointer 7)] := by
  obtain ⟨-, -, hlost, -, hfree, hreserved⟩ := Message.classification_canonical
  refine ⟨?_, ?_, ?_⟩
  · exact (hlost _).mpr ⟨.pointer, _, rfl, .inr ⟨rfl, 7, [.empty], rfl⟩⟩
  · exact hfree .pointer [.float 1, .empty] (.inr ⟨rfl, nofun⟩) "a" [.pointer, .anything] ⟨"t"⟩
  · exact hreserved .pointer .pointer [.pointer 7, .empty] (.pointer 7 [.empty]) "a"
      [.pointer, .anything] ⟨"t"⟩

end Patchbay
