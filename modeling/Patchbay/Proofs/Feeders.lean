import Mathlib.Data.List.Basic
import Patchbay.Proofs.Places
import Patchbay.Proofs.Schedule

/-!
# What feeds an inlet

The vertices and edges of the signal graph are numbers. Read by place, an inlet is
fed by the connections into it that leave a signal outlet, in the order in which
the patch lists them, and the edges into a vertex say just that.
-/

namespace Patchbay

/-- Looking for a key finds the item that has it, if no two items share a key. -/
theorem find?_key_eq_some_iff {α κ : Type*} [BEq κ] [LawfulBEq κ] {items : List α}
    {key : α → κ} (hnodup : (items.map key).Nodup) {wanted : κ} {item : α} :
    (items.find? fun item => key item == wanted) = some item ↔
      item ∈ items ∧ key item = wanted := by
  induction items with
  | nil => simp
  | cons first rest ih =>
    rw [List.map_cons, List.nodup_cons] at hnodup
    by_cases hfirst : key first = wanted
    · have habsent : ∀ other ∈ rest, key other ≠ wanted := by
        intro other hother heq
        exact hnodup.1 (List.mem_map.mpr ⟨other, hother, heq.trans hfirst.symm⟩)
      simp only [List.find?_cons, hfirst, beq_self_eq_true, Option.some.injEq, List.mem_cons]
      constructor
      · rintro rfl
        exact ⟨Or.inl rfl, hfirst⟩
      · rintro ⟨rfl | hmem, hkey⟩
        · rfl
        · exact absurd hkey (habsent item hmem)
    · rw [List.find?_cons_of_neg (by simpa using hfirst), ih hnodup.2, List.mem_cons]
      constructor
      · rintro ⟨hmem, hkey⟩
        exact ⟨Or.inr hmem, hkey⟩
      · rintro ⟨rfl | hmem, hkey⟩
        · exact absurd hkey hfirst
        · exact ⟨hmem, hkey⟩

namespace Slots

/-- How many signal outlets the object at a place has. -/
def signalOutlets (slots : Slots) (place : NodeRef) : Nat :=
  ((slots.node? place).map fun node => node.signalPorts.2).getD 0

/-- The outlets that feed a signal inlet, in connection order. -/
def feeders (slots : Slots) (place : NodeRef) (inlet : Nat) : List (NodeRef × Nat) :=
  match slots.patchAt place.slot with
  | some patch =>
    patch.connections.filterMap fun connection =>
      let source : NodeRef := { slot := place.slot, object := connection.source }
      if connection.target = place.object ∧ connection.inlet = inlet ∧
          connection.outlet < slots.signalOutlets source then
        some (source, connection.outlet)
      else none
  | none => []

/-- Of what is collected from all patches, one slot contributes what its patch does. -/
theorem flatMap_patches_eq {α : Type*} (slots : Slots) (slot : Nat) (collect : Patch → List α) :
    (slots.patches.flatMap fun entry => if entry.1.slot = slot then collect entry.2 else []) =
      match slots.patchAt slot with
      | some patch => collect patch
      | none => [] := by
  have hnone (entries : List (PatchId × Patch)) (h : ∀ entry ∈ entries, entry.1.slot ≠ slot) :
      (entries.flatMap fun entry => if entry.1.slot = slot then collect entry.2 else []) = [] := by
    rw [List.flatMap_eq_nil_iff]
    intro entry hentry
    rw [if_neg (h entry hentry)]
  cases hpatch : slots.patchAt slot with
  | none =>
    apply hnone
    rintro ⟨⟨index, generation⟩, patch⟩ hentry rfl
    have hopen := patchAt_eq_some_iff.mpr ⟨generation, hentry⟩
    simp [hpatch] at hopen
  | some patch =>
    obtain ⟨generation, hentry⟩ := patchAt_eq_some_iff.mp hpatch
    obtain ⟨before, after, hsplit⟩ := List.append_of_mem hentry
    have hpairwise := patches_pairwise slots
    rw [hsplit, List.pairwise_append, List.pairwise_cons] at hpairwise
    obtain ⟨-, ⟨hafter, -⟩, hbefore⟩ := hpairwise
    rw [hsplit, List.flatMap_append, List.flatMap_cons, hnone before, hnone after]
    · simp
    · intro entry hmem
      exact Nat.ne_of_gt (hafter entry hmem)
    · intro entry hmem
      exact Nat.ne_of_lt (hbefore entry hmem _ List.mem_cons_self)

end Slots

namespace SignalGraph
variable {slots : Slots}

/-! ## Vertices -/

theorem map_place_verticesOf (slots : Slots) :
    (verticesOf slots).map Vertex.place = slots.placesOf Node.isSignal := by
  simp only [verticesOf, Slots.placesOf, List.map_filterMap,
    apply_ite (Option.map Vertex.place), Option.map_some, Option.map_none]
  induction slots.nodes with
  | nil => rfl
  | cons entry rest ih =>
    obtain ⟨place, node⟩ := entry
    by_cases h : node.isSignal <;> simp [h, ih]

theorem nodup_place_verticesOf (slots : Slots) :
    ((verticesOf slots).map Vertex.place).Nodup :=
  map_place_verticesOf slots ▸ Slots.placesOf_nodup slots Node.isSignal

/-- A vertex stands for the object at its place, with the ports of this object. -/
theorem node?_of_mem_verticesOf {vertex : Vertex} (h : vertex ∈ verticesOf slots) :
    ∃ node, slots.node? vertex.place = some node ∧ node.isSignal = true ∧
      node.signalPorts = (vertex.inlets, vertex.outlets) := by
  obtain ⟨⟨place, node⟩, hentry, hvertex⟩ := List.mem_filterMap.mp h
  by_cases hsignal : node.isSignal
  · simp only [hsignal, ↓reduceIte, Option.some.injEq] at hvertex
    cases hvertex
    exact ⟨node, Slots.mem_nodes.mp hentry, hsignal, rfl⟩
  · simp [hsignal] at hvertex

theorem exists_vertex {place : NodeRef} {node : Node} (hnode : slots.node? place = some node)
    (hsignal : node.isSignal = true) : ∃ vertex ∈ verticesOf slots, vertex.place = place := by
  have hplace : place ∈ slots.placesOf Node.isSignal :=
    Slots.mem_placesOf.mpr ⟨node, hnode, hsignal⟩
  rw [← map_place_verticesOf] at hplace
  exact List.mem_map.mp hplace

theorem vertexAt?_eq_some_iff {place : NodeRef} {index : Nat} {vertex : Vertex} :
    vertexAt? (verticesOf slots) place = some (index, vertex) ↔
      (verticesOf slots)[index]? = some vertex ∧ vertex.place = place := by
  have hnodup : ((verticesOf slots).zipIdx.map fun entry => entry.1.place).Nodup := by
    have hplaces : ((verticesOf slots).zipIdx.map fun entry => entry.1.place) =
        ((verticesOf slots).zipIdx.map Prod.fst).map Vertex.place := by
      rw [List.map_map]
      rfl
    rw [hplaces, List.zipIdx_map_fst]
    exact nodup_place_verticesOf slots
  simp only [vertexAt?, Option.map_eq_some_iff, find?_key_eq_some_iff hnodup, Prod.exists,
    Prod.mk.injEq, List.mk_mem_zipIdx_iff_getElem?]
  constructor
  · rintro ⟨_, _, h, rfl, rfl⟩
    exact h
  · intro h
    exact ⟨vertex, index, h, rfl, rfl⟩

/-- A place with a vertex has the outlets of the vertex, any other place has none. -/
theorem signalOutlets_eq (slots : Slots) (place : NodeRef) :
    slots.signalOutlets place =
      ((vertexAt? (verticesOf slots) place).map fun found => found.2.outlets).getD 0 := by
  cases hfound : vertexAt? (verticesOf slots) place with
  | some found =>
    obtain ⟨hvertex, rfl⟩ := vertexAt?_eq_some_iff.mp hfound
    obtain ⟨node, hnode, -, hports⟩ := node?_of_mem_verticesOf (List.mem_of_getElem? hvertex)
    simp [Slots.signalOutlets, hnode, hports]
  | none =>
    cases hnode : slots.node? place with
    | none => simp [Slots.signalOutlets, hnode]
    | some node =>
      by_cases hsignal : node.isSignal = true
      · obtain ⟨vertex, hvertex, rfl⟩ := exists_vertex hnode hsignal
        obtain ⟨index, hindex⟩ := List.mem_iff_getElem?.mp hvertex
        rw [vertexAt?_eq_some_iff.mpr ⟨hindex, rfl⟩] at hfound
        cases hfound
      · have hports : node.signalPorts = (0, 0) := by simpa [Node.isSignal] using hsignal
        simp [Slots.signalOutlets, hnode, hports]

/-! ## Edges -/

theorem edgeOf?_eq_some_iff {slot : Nat} {connection : Connection} {edge : Edge} :
    edgeOf? (verticesOf slots) slot connection = some edge ↔
      ∃ tail head, (verticesOf slots)[edge.source]? = some tail ∧
        (verticesOf slots)[edge.target]? = some head ∧
        tail.place = ⟨slot, connection.source⟩ ∧ head.place = ⟨slot, connection.target⟩ ∧
        edge.outlet = connection.outlet ∧ edge.inlet = connection.inlet ∧
        connection.outlet < tail.outlets ∧ connection.inlet < head.inlets := by
  constructor
  · intro h
    unfold edgeOf? at h
    split at h
    · rename_i source tail target head hsource htarget
      simp only [Option.ite_none_right_eq_some, Option.some.injEq] at h
      obtain ⟨⟨houtlet, hinlet⟩, rfl⟩ := h
      obtain ⟨hsource, htail⟩ := vertexAt?_eq_some_iff.mp hsource
      obtain ⟨htarget, hhead⟩ := vertexAt?_eq_some_iff.mp htarget
      exact ⟨tail, head, hsource, htarget, htail, hhead, rfl, rfl, houtlet, hinlet⟩
    · cases h
  · rintro ⟨tail, head, hsource, htarget, htail, hhead, houtlet, hinlet, hlt⟩
    rw [edgeOf?, vertexAt?_eq_some_iff.mpr ⟨hsource, htail⟩,
      vertexAt?_eq_some_iff.mpr ⟨htarget, hhead⟩]
    simp only [hlt, and_self, ↓reduceIte]
    rw [← houtlet, ← hinlet]

/-- An edge joins ports that its two vertices have. -/
theorem exists_ends_of_mem_edges {edge : Edge} (h : edge ∈ (ofSlots slots).edges) :
    ∃ tail head, (verticesOf slots)[edge.source]? = some tail ∧
      (verticesOf slots)[edge.target]? = some head ∧
      edge.outlet < tail.outlets ∧ edge.inlet < head.inlets := by
  obtain ⟨entry, -, hconnection⟩ := List.mem_flatMap.mp h
  obtain ⟨connection, -, hmade⟩ := List.mem_filterMap.mp hconnection
  obtain ⟨tail, head, htail, hhead, -, -, houtlet, hinlet, hlt⟩ := edgeOf?_eq_some_iff.mp hmade
  exact ⟨tail, head, htail, hhead, houtlet ▸ hlt.1, hinlet ▸ hlt.2⟩

theorem joined_ofSlots (slots : Slots) : (ofSlots slots).Joined := by
  intro edge hedge
  obtain ⟨tail, head, htail, hhead, -⟩ := exists_ends_of_mem_edges hedge
  exact ⟨(List.getElem?_eq_some_iff.mp htail).1, (List.getElem?_eq_some_iff.mp hhead).1⟩

/-- The outlet an edge comes from, by place. -/
def origin (vertices : List Vertex) (edge : Edge) : NodeRef × Nat :=
  ((vertices.getD edge.source default).place, edge.outlet)

/-- A connection makes an edge into a given inlet exactly if it feeds it. -/
theorem map_origin_edgeOf? {index : Nat} {vertex : Vertex}
    (hvertex : (verticesOf slots)[index]? = some vertex) {inlet : Nat}
    (hinlet : inlet < vertex.inlets) (slot : Nat) (connection : Connection) :
    ((edgeOf? (verticesOf slots) slot connection).filter fun edge =>
        edge.target == index && edge.inlet == inlet).map (origin (verticesOf slots)) =
      if slot = vertex.place.slot ∧ connection.target = vertex.place.object ∧
          connection.inlet = inlet ∧
          connection.outlet < slots.signalOutlets ⟨vertex.place.slot, connection.source⟩ then
        some (⟨vertex.place.slot, connection.source⟩, connection.outlet)
      else none := by
  apply Option.ext
  intro fed
  simp only [Option.map_eq_some_iff, Option.filter_eq_some_iff, edgeOf?_eq_some_iff,
    Bool.and_eq_true, beq_iff_eq, Option.ite_none_right_eq_some, Option.some.injEq]
  constructor
  · rintro ⟨⟨source, outlet, target, _⟩,
      ⟨⟨tail, head, htail, hhead, hfrom, hinto, rfl, rfl, hlt, -⟩, rfl, rfl⟩, rfl⟩
    simp only at htail hhead
    obtain rfl : vertex = head := by simpa [hvertex] using hhead
    have hsource : slots.signalOutlets ⟨slot, connection.source⟩ = tail.outlets := by
      rw [signalOutlets_eq, vertexAt?_eq_some_iff.mpr ⟨htail, hfrom⟩]
      rfl
    simp [hinto, hsource, hlt, origin, htail, hfrom]
  · rintro ⟨⟨rfl, htarget, rfl, hlt⟩, rfl⟩
    rw [signalOutlets_eq] at hlt
    cases hfound : vertexAt? (verticesOf slots) ⟨vertex.place.slot, connection.source⟩ with
    | none => simp [hfound] at hlt
    | some found =>
      obtain ⟨source, tail⟩ := found
      obtain ⟨htail, hfrom⟩ := vertexAt?_eq_some_iff.mp hfound
      have houtlet : connection.outlet < tail.outlets := by simpa [hfound] using hlt
      refine ⟨⟨source, connection.outlet, index, connection.inlet⟩,
        ⟨⟨tail, vertex, htail, hvertex, hfrom, ?_, rfl, rfl, houtlet, hinlet⟩, rfl, rfl⟩, ?_⟩
      · rw [htarget]
      · simp [origin, htail, hfrom]

/-- The edges into an inlet are the feeders of the inlet, in the same order. -/
theorem map_origin_edges {index : Nat} {vertex : Vertex}
    (hvertex : (verticesOf slots)[index]? = some vertex) {inlet : Nat}
    (hinlet : inlet < vertex.inlets) :
    ((ofSlots slots).edges.filter fun edge =>
        edge.target == index && edge.inlet == inlet).map (origin (verticesOf slots)) =
      slots.feeders vertex.place inlet := by
  rw [Slots.feeders, ← Slots.flatMap_patches_eq]
  simp only [ofSlots, List.filter_flatMap, List.map_flatMap, List.filter_filterMap,
    List.map_filterMap, map_origin_edgeOf? hvertex hinlet]
  congr 1
  funext entry
  split <;> simp [*]

/-- Slots of one outline have the same signal graph. -/
theorem ofSlots_eq_of_outline {slots' : Slots} (h : slots'.outline = slots.outline) :
    ofSlots slots' = ofSlots slots := by
  have houtline (slots : Slots) : ofSlots slots.outline = ofSlots slots := by
    have hvertices : verticesOf slots.outline = verticesOf slots := by
      simp [verticesOf, Slots.nodes_outline, List.filterMap_map]
    simp only [ofSlots, hvertices, Slots.patches_outline, List.flatMap_map]
    rfl
  rw [← houtline slots', h, houtline]

end SignalGraph

end Patchbay
