import Mathlib.Data.List.Basic
import Patchbay.Proofs.Addresses
import Patchbay.Proofs.Handles

/-!
# Patch numbers keep patches apart

Every load that reads a file takes a number, whether or not the file is a patch. Loads that
succeed have different numbers as long as the numbers do not go round, so a word with a place
for the number names one tie in one patch and another tie in the other. What is sent to one
tie is handed to the objects that listen there and to no others.

## Implementation notes

Numbers are counted along a chronicle: the number of a load is told by how many files have
been read before it, on all instances together.
-/

namespace Patchbay

/-! ## What loads read -/

/-- The text of the file that loading a name finds. -/
def Environment.textNamed? (environment : Environment) (name directory : String) :
    Option String :=
  (environment.searchPath.resolve? environment.files name directory).bind fun path =>
    environment.files.readText? path

/-- The text that a turn reads as a patch, if it is a load that finds a text. -/
def Turn.text? (turn : Turn) : Option String :=
  match turn.action with
  | .request _ (.load name directory) => turn.before.environment.textNamed? name directory
  | _ => none

/-- Whether a turn reads a text as a patch. -/
def Turn.reads (turn : Turn) : Bool := turn.text?.isSome

/-- A load takes a number if it reads a text, and no other part of the environment. -/
theorem Instance.environment_load (inst : Instance) (environment : Environment)
    (name directory : String) :
    (inst.load environment name directory).state.1 =
      { environment with
        nextDollarZero := environment.nextDollarZero +
          if (environment.textNamed? name directory).isSome then 1 else 0 } := by
  unfold load Environment.textNamed?
  cases environment.searchPath.resolve? environment.files name directory with
  | none => simp
  | some path =>
    have hread : (environment.readPatchFile path).1 =
        { environment with
          nextDollarZero := environment.nextDollarZero +
            if (environment.files.readText? path).isSome then 1 else 0 } := by
      unfold Environment.readPatchFile
      cases environment.files.readText? path <;> simp
    rw [Option.bind_some, ← hread]
    dsimp only
    split
    · rename_i hfailed
      rw [hfailed]
    · rename_i hopened
      rw [hopened]

namespace Rack
variable {rack : Rack} {action : HostAction} {done : Outcome Rack Reply}

theorem environment_abandonQueue (rack : Rack) (queue : Option Nat) :
    (rack.abandonQueue queue).environment = rack.environment := by
  cases queue <;> rfl

theorem environment_dropUnused (rack : Rack) (position : Nat) :
    (rack.dropUnused position).1.environment = rack.environment := by
  unfold dropUnused
  split
  · split
    · exact environment_abandonQueue _ _
    · rfl
  · rfl

theorem environment_setCurrent (rack : Rack) (selection : Option Nat) :
    (rack.setCurrent selection).1.environment = rack.environment := by
  unfold setCurrent
  split
  · exact environment_dropUnused _ _
  · rfl

theorem environment_letGo (rack : Rack) (position count : Nat) :
    (rack.letGo position count).1.environment = rack.environment :=
  environment_dropUnused _ _

theorem environment_free {position : Nat} {done : Outcome Rack Unit}
    (h : rack.free position = some done) : done.state.environment = rack.environment := by
  obtain ⟨shared, -, rfl⟩ := Option.map_eq_some_iff.mp h
  split
  · rfl
  · split
    · exact rack.environment_letGo position 1
    · rfl

theorem environment_tryFree {position : Nat} {done : Outcome Rack Unit}
    (h : rack.tryFree position = some done) : done.state.environment = rack.environment := by
  obtain ⟨freed, hfreed, rfl⟩ := Option.map_eq_some_iff.mp h
  split
  · exact environment_free hfreed
  · exact (environment_letGo _ _ _).trans (environment_free hfreed)

theorem environment_perform {position size : Nat} {inputs outputs : List Block}
    {done : Outcome Rack (List Block)}
    (h : rack.perform position size inputs outputs = some done) :
    done.state.environment = rack.environment := by
  cases hinst : rack.instance? position with
  | none =>
    rw [perform, hinst] at h
    cases h
  | some inst =>
    rw [perform_eq hinst] at h
    cases h
    simp only [record, setInstance]
    split
    · unfold drain
      split <;> rfl
    · rfl

/-- A request takes a number if it is a load that reads a text. -/
theorem nextDollarZero_serve (inst : Instance) (rack : Rack) (position : Nat) (request : Request)
    (done : Outcome Rack Reply) :
    (inst.serve rack.environment request).state.1.nextDollarZero =
      rack.environment.nextDollarZero +
        if Turn.reads { before := rack, action := .request position request, done } then 1
        else 0 := by
  cases request with
  | load name directory =>
    exact congrArg Environment.nextDollarZero
      (inst.environment_load rack.environment name directory)
  | _ => exact (Int32.add_zero _).symm

/-- An action takes a number if it is a load that reads a text. -/
theorem nextDollarZero_act (h : rack.act action = some done) :
    done.state.environment.nextDollarZero = rack.environment.nextDollarZero +
      if Turn.reads { before := rack, action, done } then 1 else 0 := by
  have hsame (hreads : Turn.reads { before := rack, action, done } = false)
      (henvironment : done.state.environment.nextDollarZero = rack.environment.nextDollarZero) :
      done.state.environment.nextDollarZero = rack.environment.nextDollarZero +
        if Turn.reads { before := rack, action, done } then 1 else 0 := by
    rw [hreads, henvironment]
    exact (Int32.add_zero _).symm
  cases action with
  | request position request =>
    obtain ⟨inst, -, rfl⟩ := Option.map_eq_some_iff.mp h
    exact nextDollarZero_serve inst rack position request _
  | create extension => cases h; exact hsame rfl rfl
  | perform position size inputs outputs =>
    obtain ⟨ran, hran, rfl⟩ := Option.map_eq_some_iff.mp h
    exact hsame rfl (congrArg _ (environment_perform hran))
  | openQueue position capacity =>
    obtain ⟨opened, hopened, rfl⟩ := Option.map_eq_some_iff.mp h
    obtain ⟨inst, -, rfl⟩ := Option.map_eq_some_iff.mp hopened
    exact hsame rfl (congrArg _ (rack.environment_abandonQueue inst.queue))
  | enqueue queue command =>
    simp only [act, Option.ite_none_right_eq_some, Option.some.injEq] at h
    obtain ⟨-, rfl⟩ := h
    refine hsame rfl ?_
    unfold enqueue
    split <;> rfl
  | select selection =>
    cases selection with
    | none =>
      cases h
      exact hsame rfl (congrArg _ (rack.environment_setCurrent none))
    | some position =>
      simp only [act, Option.ite_none_right_eq_some, Option.some.injEq] at h
      obtain ⟨-, rfl⟩ := h
      exact hsame rfl (congrArg _ (rack.environment_setCurrent (some position)))
  | hold position =>
    simp only [act, Option.ite_none_right_eq_some, Option.some.injEq] at h
    obtain ⟨-, rfl⟩ := h
    exact hsame rfl rfl
  | letGo position count =>
    simp only [act, Option.ite_none_right_eq_some, Option.some.injEq] at h
    obtain ⟨-, rfl⟩ := h
    exact hsame rfl (congrArg _ (rack.environment_letGo position count))
  | free position =>
    simp only [act, Option.ite_none_right_eq_some] at h
    obtain ⟨freed, hfreed, rfl⟩ := Option.map_eq_some_iff.mp h.2
    exact hsame rfl (congrArg _ (environment_free hfreed))
  | tryFree position =>
    simp only [act, Option.ite_none_right_eq_some] at h
    obtain ⟨freed, hfreed, rfl⟩ := Option.map_eq_some_iff.mp h.2
    exact hsame rfl (congrArg _ (environment_tryFree hfreed))
  | openHistory => cases h; exact hsame rfl rfl
  | clearHistory history => cases h; exact hsame rfl rfl
  | setFiles files => cases h; exact hsame rfl rfl
  | addSearchPath directory => cases h; exact hsame rfl rfl
  | clearSearchPath => cases h; exact hsame rfl rfl

end Rack

/-! ## Numbers along a chronicle -/

section
variable {turns : List Turn} {rack : Rack}

theorem int32_ofNat_succ (n : Nat) : Int32.ofNat (n + 1) = Int32.ofNat n + 1 := by
  simp [Int32.ofNat_add]

/-- The next number is told by how many texts have been read. -/
theorem Rack.Chronicle.nextDollarZero_eq (h : Rack.Chronicle turns rack) :
    rack.environment.nextDollarZero =
      firstDollarZero + Int32.ofNat (turns.countP Turn.reads) := by
  induction h with
  | start => rfl
  | @next turns rack action done _ hdone ih =>
    rw [nextDollarZero_act hdone, ih, List.countP_append, List.countP_singleton]
    split
    · rw [int32_ofNat_succ, Int32.add_assoc]
    · rw [Nat.add_zero, Int32.add_zero]

/-- What came before a turn is a chronicle of its own. -/
theorem Rack.Chronicle.before (h : Rack.Chronicle turns rack) {index : Nat} {turn : Turn}
    (hturn : turns[index]? = some turn) :
    Rack.Chronicle (turns.take index) turn.before := by
  induction h with
  | start => cases hturn
  | @next turns rack action done hpast _ ih =>
    have hlt := (List.getElem?_eq_some_iff.mp hturn).1
    rw [List.length_append, List.length_singleton] at hlt
    rcases Nat.lt_succ_iff_lt_or_eq.mp hlt with hearlier | rfl
    · rw [List.getElem?_append_left hearlier] at hturn
      rw [List.take_append_of_le_length (Nat.le_of_lt hearlier)]
      exact ih hturn
    · rw [List.getElem?_concat_length] at hturn
      cases hturn
      rwa [List.take_left]

theorem int32_ofNat_inj {m n : Nat} (hm : m < 2 ^ 32) (hn : n < 2 ^ 32)
    (h : Int32.ofNat m = Int32.ofNat n) : m = n := by
  have hbits := congrArg (fun value : Int32 => value.toBitVec.toNat) h
  simp only [Int32.toBitVec_ofNat', BitVec.toNat_ofNat] at hbits
  rwa [Nat.mod_eq_of_lt hm, Nat.mod_eq_of_lt hn] at hbits

/-- Of two turns that read texts, the later one meets another number. -/
theorem Rack.Chronicle.nextDollarZero_ne_of_lt (h : Rack.Chronicle turns rack)
    (hbound : turns.countP Turn.reads < 2 ^ 31 - 1000) {i j : Nat} {first second : Turn}
    (hfirst : turns[i]? = some first) (hsecond : turns[j]? = some second) (hlt : i < j)
    (hreads : first.reads) :
    first.before.environment.nextDollarZero ≠ second.before.environment.nextDollarZero := by
  rw [(h.before hfirst).nextDollarZero_eq, (h.before hsecond).nextDollarZero_eq]
  have hsucc : (turns.take (i + 1)).countP Turn.reads = (turns.take i).countP Turn.reads + 1 := by
    rw [List.take_add_one, hfirst, Option.toList_some, List.countP_append, List.countP_singleton,
      if_pos hreads]
  have hbetween : (turns.take (i + 1)).countP Turn.reads ≤ (turns.take j).countP Turn.reads :=
    (List.take_prefix_take_left hlt).sublist.countP_le
  have hall : (turns.take j).countP Turn.reads ≤ turns.countP Turn.reads :=
    (List.take_sublist j turns).countP_le
  intro heq
  have hcounts := int32_ofNat_inj (by omega) (by omega) (Int32.add_right_inj _ |>.mp heq)
  omega

/-- What a successful load has read, and under which number. -/
theorem Turn.readPatch_of_handed {turn : Turn} {position : Nat} {id : PatchId} {patch : Patch}
    (h : turn.handed position = some (id, patch)) :
    ∃ text, turn.text? = some text ∧ ∃ name path diagnostics,
      readPatch name path text turn.before.environment.nextDollarZero =
        .ok (patch, diagnostics) := by
  obtain ⟨request, hrequest, hhanded⟩ := Option.bind_eq_some_iff.mp h
  have haction := action_of_requestAt hrequest
  unfold Request.handed at hhanded
  split at hhanded
  · rename_i name directory _ _
    obtain ⟨found, hfound, heq⟩ := Option.map_eq_some_iff.mp hhanded
    cases heq
    obtain ⟨path, hpath, hread⟩ := Option.bind_eq_some_iff.mp hfound
    unfold Environment.readPatchFile at hread
    cases htext : turn.before.environment.files.readText? path with
    | none =>
      rw [htext] at hread
      cases hread
    | some text =>
      rw [htext] at hread
      refine ⟨text, ?_, (Path.fileName? path).getD "", path, ?_⟩
      · rw [Turn.text?, haction]
        simp only [Environment.textNamed?, hpath, Option.bind_some, htext]
      · dsimp only at hread
        cases hdone : readPatch ((Path.fileName? path).getD "") path text
            turn.before.environment.nextDollarZero with
        | error failure =>
          rw [hdone] at hread
          cases hread
        | ok done =>
          rw [hdone] at hread
          cases hread
          exact ⟨done.2, rfl⟩
  · cases hhanded

/-! ## Who is reached -/

variable {position : Nat} {inst : Instance}

/-- The places that a send to a tie delivers to are those of the objects that listen there. -/
theorem Rack.Reachable.mem_listening_iff (h : rack.Reachable)
    (hinst : rack.instance? position = some inst) {tie : Tie} {place : NodeRef} :
    place ∈ inst.engine.listeners.listening tie ↔
      (inst.engine.slots.node? place).bind Node.listensAt = some tie := by
  rw [(h.engine hinst).settled.listeners_eq, Listeners.listening_ofSlots, Slots.mem_placesOf]
  simp only [beq_iff_eq, Option.bind_eq_some_iff]

/-- Two ties are different, and no object of a session is reached through both. -/
structure Rack.KeepsApart (rack : Rack) (first second : Tie) : Prop where
  ne : first ≠ second
  disjoint : ∀ position inst, rack.instance? position = some inst →
    List.Disjoint (inst.engine.listeners.listening first)
      (inst.engine.listeners.listening second)

theorem Rack.Reachable.keepsApart (h : rack.Reachable) {first second : Tie}
    (hne : first ≠ second) : rack.KeepsApart first second where
  ne := hne
  disjoint := by
    intro position inst hinst place hfirst hsecond
    rw [h.mem_listening_iff hinst] at hfirst hsecond
    exact hne (Option.some.inj (hfirst.symm.trans hsecond))

/-- As long as its patch is open, an object is reached through one tie and not through
another. -/
def Rack.ReachesOnly (rack : Rack) (position : Nat) (taken : List PatchId) (id : PatchId)
    (index : Nat) (own other : Tie) : Prop :=
  ∀ inst, rack.instance? position = some inst → id ∉ taken →
    { slot := id.slot, object := index } ∈ inst.engine.listeners.listening own ∧
      { slot := id.slot, object := index } ∉ inst.engine.listeners.listening other

theorem uses_handed_le (turns : List Turn) (position slot : Nat) :
    Slots.uses (handed position turns) slot ≤ turns.countP Turn.reads := by
  refine Nat.le_trans (Slots.uses_le_length _ slot) ?_
  rw [handed, List.length_filterMap_eq_countP]
  apply List.countP_mono_left
  intro turn _ hhanded
  obtain ⟨⟨id, patch⟩, hsome⟩ := Option.isSome_iff_exists.mp hhanded
  obtain ⟨text, htext, -⟩ := Turn.readPatch_of_handed hsome
  rw [Turn.reads, htext]
  rfl

/-- A receiver listens where its patch was read to listen, until the patch is closed. -/
theorem Rack.Chronicle.reachesOnly (h : Rack.Chronicle turns rack)
    (hbound : turns.countP Turn.reads < 2 ^ 31 - 1000) {id : PatchId} {patch : Patch}
    (hgiven : (id, patch) ∈ handed position turns) {index : Nat} {own other : Tie}
    (hlistens : (patch.node? index).bind Node.listensAt = some own) (hne : own ≠ other) :
    rack.ReachesOnly position (returned position turns) id index own other := by
  intro inst hinst hopen
  have huses (slot : Nat) : Slots.uses (handed position turns) slot < 2 ^ 32 := by
    have hle := uses_handed_le turns position slot
    omega
  obtain ⟨found, hfound, houtline⟩ := (h.kept hinst huses).found (id, patch) hgiven hopen
  have hnode : (inst.engine.slots.node? { slot := id.slot, object := index }).bind
      Node.listensAt = some own := by
    rw [Slots.node?, Slots.patchAt_of_patch? hfound, Option.bind_some, ← hlistens]
    have hsame := congrArg (fun outline : Patch => (outline.node? index).bind Node.listensAt)
      houtline
    simpa only [Patch.node?_outline, Option.bind_map, Function.comp_def,
      Node.listensAt_outline] using hsame
  have hown := (h.reachable.mem_listening_iff hinst).mpr hnode
  exact ⟨hown, (h.reachable.keepsApart hne).disjoint position inst hinst hown⟩

/-! ## Two loads -/

/-- A turn has loaded a patch into an instance, from a text. -/
structure Turn.Loads (turn : Turn) (position : Nat) (id : PatchId) (patch : Patch)
    (text : String) : Prop where
  handed_eq : turn.handed position = some (id, patch)
  text_eq : turn.text? = some text

/-- Names with the patch number in them keep two loaded patches apart. -/
structure Rack.Isolates (turns : List Turn) (rack : Rack) (p q : Nat) (a b : PatchId)
    (first second : Patch) (text text' : String) : Prop where
  dollarZero_ne : first.dollarZero ≠ second.dollarZero
  endings : ∀ ending, rack.KeepsApart (first.tieFor ending) (second.tieFor ending)
  receivers : ∀ word, HasDollarZero word → NoNumber word first.dollarZero →
    NoNumber word second.dollarZero → ∀ index index',
      MakesObject text ["r", "receive"] word index →
        MakesObject text' ["r", "receive"] word index' →
          ∃ tie tie', (first.node? index).bind Node.listensAt = some tie ∧
            (second.node? index').bind Node.listensAt = some tie' ∧ rack.KeepsApart tie tie' ∧
            rack.ReachesOnly p (returned p turns) a index tie tie' ∧
            rack.ReachesOnly q (returned q turns) b index' tie' tie
  /-- A send works on one instance and leaves all others alone. -/
  elsewhere : ∀ position tie message done,
    rack.act (.request position (.send tie message)) = some done →
      ∀ other, other ≠ position → done.state.instance? other = rack.instance? other

theorem Rack.instance?_send {tie : Tie} {message : Message} {done : Outcome Rack Reply}
    (h : rack.act (.request position (.send tie message)) = some done) {other : Nat}
    (hne : other ≠ position) : done.state.instance? other = rack.instance? other := by
  cases act_changes h with
  | served _ hlive =>
    rw [instance?_eq, instance?_eq, hlive, List.getElem?_set_ne (Ne.symm hne)]
  | upkeep haction => cases haction

theorem argumentTie_ne {word : String} (hword : HasDollarZero word) {a b : Int32}
    (ha : NoNumber word a) (hb : NoNumber word b) (hne : a ≠ b) :
    argumentTie word a ≠ argumentTie word b := by
  rw [argumentTie_of_noNumber ha, argumentTie_of_noNumber hb]
  intro heq
  exact hne (expandName_inj hword (congrArg Tie.name heq))

theorem Patch.tieFor_ne {first second : Patch} (hne : first.dollarZero ≠ second.dollarZero)
    (ending : String) : first.tieFor ending ≠ second.tieFor ending := by
  intro heq
  have hnames := congrArg (fun tie : Tie => tie.name.toList) heq
  simp only [Patch.tieFor, String.toList_append] at hnames
  exact hne (toString_int32_inj (String.toList_injective (List.append_cancel_right hnames)))

/-- Every two loads that succeed in a session, on whatever instances, give patches that the
patch number keeps apart. -/
theorem Rack.Chronicle.loads_isolated (h : Rack.Chronicle turns rack)
    (hbound : turns.countP Turn.reads < 2 ^ 31 - 1000) {i j p q : Nat} {first second : Turn}
    {a b : PatchId} (hfirst : turns[i]? = some first) (hsecond : turns[j]? = some second)
    (hne : i ≠ j) (hp : first.loaded p = some a) (hq : second.loaded q = some b) :
    ∃ A B text text', first.Loads p a A text ∧ second.Loads q b B text' ∧
      rack.Isolates turns p q a b A B text text' := by
  have hgiven {turn : Turn} {position index : Nat} {id : PatchId}
      (hturn : turns[index]? = some turn) (hloaded : turn.loaded position = some id) :
      ∃ patch, turn.handed position = some (id, patch) ∧ (id, patch) ∈ handed position turns := by
    have hmem := List.mem_of_getElem? hturn
    rw [← map_fst_handed (h.act_eq turn hmem)] at hloaded
    obtain ⟨⟨id, patch⟩, hhanded, rfl⟩ := Option.map_eq_some_iff.mp hloaded
    exact ⟨patch, hhanded, List.mem_filterMap.mpr ⟨turn, hmem, hhanded⟩⟩
  obtain ⟨A, hA, hAgiven⟩ := hgiven hfirst hp
  obtain ⟨B, hB, hBgiven⟩ := hgiven hsecond hq
  obtain ⟨text, htext, name, path, diagnostics, hreadA⟩ := Turn.readPatch_of_handed hA
  obtain ⟨text', htext', name', path', diagnostics', hreadB⟩ := Turn.readPatch_of_handed hB
  have hnumber : A.dollarZero ≠ B.dollarZero := by
    rw [(objects_of_readPatch hreadA).1, (objects_of_readPatch hreadB).1]
    have hreads {turn : Turn} {text : String} (h : turn.text? = some text) : turn.reads := by
      rw [Turn.reads, h]
      rfl
    rcases Nat.lt_or_gt_of_ne hne with hlt | hgt
    · exact h.nextDollarZero_ne_of_lt hbound hfirst hsecond hlt (hreads htext)
    · exact (h.nextDollarZero_ne_of_lt hbound hsecond hfirst hgt (hreads htext')).symm
  refine ⟨A, B, text, text', ⟨hA, htext⟩, ⟨hB, htext'⟩, hnumber, ?_, ?_, ?_⟩
  · intro ending
    exact h.reachable.keepsApart (Patch.tieFor_ne hnumber ending)
  · intro word hword hwordA hwordB index index' hobject hobject'
    have htie := argumentTie_ne hword hwordA hwordB hnumber
    have hlistens := listensAt_of_makesObject hreadA hobject
    have hlistens' := listensAt_of_makesObject hreadB hobject'
    exact ⟨_, _, hlistens, hlistens', h.reachable.keepsApart htie,
      h.reachesOnly hbound hAgiven hlistens htie,
      h.reachesOnly hbound hBgiven hlistens' htie.symm⟩
  · intro position tie message done hdone other hother
    exact instance?_send hdone hother

end

/-- A session in which two instances load one file, and one of them a text that is no patch in
between. -/
def twins : List HostAction :=
  [.create none, .create none,
    .setFiles
      { entries :=
          [(["a.pd"], .file (.text "#N canvas 0 0 9 9 10;\n#X obj 0 0 r \\$0-x;\n")),
            (["b.pd"], .file (.text "no patch"))] },
    .request 0 (.load "/a.pd" ""),
    .request 1 (.load "/b.pd" ""),
    .request 1 (.load "/a.pd" "")]

/-- The receivers of one word listen apart, at the numbers of the first and the third text. -/
theorem loads_isolated_twins :
    ∃ turns, ∃ rack : Rack, Rack.Chronicle turns rack ∧
      turns.countP Turn.reads < 2 ^ 31 - 1000 ∧
      (rack.instance? 0).map (fun inst => inst.engine.listeners.atTies.map Prod.fst) =
        some [⟨"1000-x"⟩] ∧
      (rack.instance? 1).map (fun inst => inst.engine.listeners.atTies.map Prod.fst) =
        some [⟨"1002-x"⟩] ∧
      ∃ first second, ∃ a b : PatchId, turns[3]? = some first ∧ turns[5]? = some second ∧
        first.loaded 0 = some a ∧ second.loaded 1 = some b ∧
        ∃ A B text text', first.Loads 0 a A text ∧ second.Loads 1 b B text' ∧
          rack.Isolates turns 0 1 a b A B text text' := by
  have hsession : (({} : Rack).session twins).any (fun rack => decide
      ((({} : Rack).turns twins).countP Turn.reads = 3 ∧
        (rack.instance? 0).map (fun inst => inst.engine.listeners.atTies.map Prod.fst) =
          some [⟨"1000-x"⟩] ∧
        (rack.instance? 1).map (fun inst => inst.engine.listeners.atTies.map Prod.fst) =
          some [⟨"1002-x"⟩] ∧
        ((({} : Rack).turns twins)[3]?.bind (Turn.loaded 0)).isSome = true ∧
        ((({} : Rack).turns twins)[5]?.bind (Turn.loaded 1)).isSome = true)) = true := by
    decide +kernel
  obtain ⟨rack, hrack, hseen⟩ := (Option.any_eq_true _ _).mp hsession
  obtain ⟨hcount, hzero, hone, hfirst, hsecond⟩ := of_decide_eq_true hseen
  obtain ⟨a, ha⟩ := Option.isSome_iff_exists.mp hfirst
  obtain ⟨b, hb⟩ := Option.isSome_iff_exists.mp hsecond
  obtain ⟨first, hthree, hp⟩ := Option.bind_eq_some_iff.mp ha
  obtain ⟨second, hfive, hq⟩ := Option.bind_eq_some_iff.mp hb
  have hchronicle := Rack.Chronicle.start.session hrack
  have hbound : (({} : Rack).turns twins).countP Turn.reads < 2 ^ 31 - 1000 := by
    rw [hcount]
    decide
  exact ⟨_, rack, hchronicle, hbound, hzero, hone, first, second, a, b, hthree, hfive, hp, hq,
    hchronicle.loads_isolated hbound hthree hfive (by decide) hp hq⟩

end Patchbay
