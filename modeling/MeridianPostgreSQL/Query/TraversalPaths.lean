import MeridianPostgreSQL.Query.Walks

/-! # Paths of a traversal

The rows of a traversal are those of its bounded simple paths, one each. -/

namespace MeridianPostgreSQL.Query

open Settings Unknowns RecursiveQueries SimplePaths

/-! ## Ends -/

section Ends

variable {spell : Rat → List Char}

theorem endNode_iff {endpoint : Option Json} {node : RecordNode} :
    endNode spell endpoint = some node ↔
      endpoint.bind (collectionText spell) = some node.collection ∧
        endpoint.bind (recordIdText spell) = some node.recordId := by
  cases endpoint with
  | none => simp [endNode]
  | some value =>
      cases collection : collectionText spell value <;> cases recordId : recordIdText spell value <;>
        simp [endNode, collection, recordId, RecordNode.ext_iff]

theorem encodedNode_end (endpoint : Option Json) :
    encodedNode (endpoint.bind (collectionText spell)) (endpoint.bind (recordIdText spell)) =
      (endNode spell endpoint).map RecordNode.encoded := by
  cases endpoint with
  | none => rfl
  | some value =>
      cases collection : collectionText spell value <;> cases recordId : recordIdText spell value <;>
        simp [endNode, encodedNode, collection, recordId, RecordNode.encoded]

end Ends

/-! ## Steps of a scan -/

namespace EdgeScan

variable (spell : Rat → List Char) (server : EdgeServer)

/-- The step along a row, where both of its ends refer to records. -/
def stepAlong (scan : EdgeScan) (stored : StoredEdge × Nat) : Option EdgeStep := do
  let source ← endNode spell (scan.leaves stored.1)
  let target ← endNode spell (scan.enters stored.1)
  some ⟨scan.position, stored.2, scan.reversed, scan.ref, source, target⟩

/-- The rows that the scan selects, with their indexes. -/
def selected (scan : EdgeScan) : List (StoredEdge × Nat) :=
  (server.rows scan.layout.table).zipIdx.filter fun stored =>
    server.selects scan.condition stored.1

def steps (scan : EdgeScan) : List EdgeStep :=
  (scan.selected server).filterMap (scan.stepAlong spell)

variable {spell server}

theorem rows_selected (scan : EdgeScan) :
    scan.rows spell server = (scan.selected server).map fun stored => scan.row spell stored.1 := by
  have listed := List.zipIdx_map_fst 0 (server.rows scan.layout.table)
  rw [rows, selected]
  conv_lhs => rw [← listed]
  rw [List.filter_map, List.map_map]
  rfl

theorem stepAlong_iff {scan : EdgeScan} {stored : StoredEdge × Nat} {step : EdgeStep} :
    scan.stepAlong spell stored = some step ↔
      endNode spell (scan.leaves stored.1) = some step.source ∧
        endNode spell (scan.enters stored.1) = some step.target ∧
        step.position = scan.position ∧ step.index = stored.2 ∧ step.reversed = scan.reversed ∧
        step.ref = scan.ref := by
  simp only [stepAlong, bind, Option.bind_eq_some_iff, Option.some.injEq]
  constructor
  · rintro ⟨source, left, target, right, rfl⟩
    exact ⟨left, right, rfl, rfl, rfl, rfl⟩
  · rintro ⟨left, right, position, index, reversed, ref⟩
    refine ⟨_, left, _, right, ?_⟩
    cases step
    cases position
    cases index
    cases reversed
    cases ref
    rfl

end EdgeScan

/-! ## Rows along paths -/

section Along

variable {spell : Rat → List Char} {start : RecordNode} {path : List EdgeStep}

theorem meets_iff {scan : EdgeScan} {stored : StoredEdge} :
    (WalkRow.along start path).meets (scan.row spell stored) = some true ↔
      endNode spell (scan.leaves stored) = some (finish EdgeStep.target start path) := by
  rw [WalkRow.meets, both_iff, endNode_iff]
  exact and_congr equals_iff equals_iff

/-- A step continues a walk below the limit exactly when it enters a new record. -/
theorem continues_iff (spells : SpellsNumbers spell) {maxDepth : Nat} {scan : EdgeScan}
    {stored : StoredEdge}
    (separate : ∀ node ∈ visited EdgeStep.target start path, node.Separate) :
    (WalkRow.along start path).continues maxDepth (scan.row spell stored) = some true ↔
      path.length < maxDepth ∧ ∃ node, endNode spell (scan.enters stored) = some node ∧
        node ∉ visited EdgeStep.target start path := by
  rw [WalkRow.continues, both_iff, negated_iff, Option.some.injEq, decide_eq_true_eq]
  refine and_congr_right fun _ => ?_
  have encoded : encodedNode (scan.row spell stored).targetCollection
      (scan.row spell stored).targetId =
        (endNode spell (scan.enters stored)).map RecordNode.encoded := encodedNode_end _
  have listed : (WalkRow.along start path).path =
      ((visited EdgeStep.target start path).map RecordNode.encoded).map some := by
    rw [List.map_map]
    rfl
  rw [encoded]
  cases entered : endNode spell (scan.enters stored) with
  | none =>
      have unknown : among none (WalkRow.along start path).path = none := among_none
      simp [unknown]
  | some node =>
      have entersSeparate := endNode_separate spells entered
      have same : node.encoded ∈ (visited EdgeStep.target start path).map RecordNode.encoded ↔
          node ∈ visited EdgeStep.target start path := by
        constructor
        · intro member
          obtain ⟨other, there, equal⟩ := List.mem_map.mp member
          exact (RecordNode.encoded_inj (separate other there) entersSeparate).mp equal ▸ there
        · exact List.mem_map_of_mem
      rw [listed, Option.map_some, among_some, Option.some.injEq, decide_eq_false_iff_not, same]
      simp

theorem follow_along {scan : EdgeScan} {stored : StoredEdge} {step : EdgeStep}
    (entered : endNode spell (scan.enters stored) = some step.target)
    (ref : step.ref = scan.ref) :
    (WalkRow.along start path).follow (scan.row spell stored) =
      WalkRow.along start (path ++ [step]) := by
  obtain ⟨collection, recordId⟩ := endNode_iff.mp entered
  simp [WalkRow.follow, WalkRow.along, EdgeScan.row, collection, recordId, ref, encodedNode,
    RecordNode.encoded]

/-- The rows of the edges that continue a walk are those of the steps that do. -/
theorem next_scan (spells : SpellsNumbers spell) (server : EdgeServer) (maxDepth : Nat)
    (separate : ∀ node ∈ visited EdgeStep.target start path, node.Separate) (scan : EdgeScan) :
    (((scan.rows spell server).filter fun edge =>
        (WalkRow.along start path).meets edge = some true ∧
          (WalkRow.along start path).continues maxDepth edge = some true).map
      (WalkRow.along start path).follow) =
    ((scan.steps spell server).filter
      (admissible EdgeStep.source EdgeStep.target start maxDepth path)).map fun step =>
        WalkRow.along start (path ++ [step]) := by
  rw [EdgeScan.rows_selected, EdgeScan.steps]
  induction scan.selected server with
  | nil => rfl
  | cons stored rest induction =>
      have continued := @continues_iff spell start path spells maxDepth scan stored.1 separate
      rw [List.map_cons, List.filter_cons, List.filterMap_cons]
      cases along : scan.stepAlong spell stored with
      | none =>
          rw [if_neg, induction]
          rw [decide_eq_true_eq, meets_iff, continued]
          rintro ⟨left, _, node, entered, _⟩
          simp [EdgeScan.stepAlong, left, entered] at along
      | some step =>
          obtain ⟨left, entered, _, _, _, ref⟩ := EdgeScan.stepAlong_iff.mp along
          have same : ((WalkRow.along start path).meets (scan.row spell stored.1) = some true ∧
              (WalkRow.along start path).continues maxDepth (scan.row spell stored.1) =
                some true) ↔
              admissible EdgeStep.source EdgeStep.target start maxDepth path step = true := by
            rw [meets_iff, continued, admissible_iff, left, entered]
            simp only [Option.some.injEq, exists_eq_left', and_left_comm]
          rw [List.filter_cons]
          by_cases admitted :
              admissible EdgeStep.source EdgeStep.target start maxDepth path step = true
          · rw [if_pos (decide_eq_true (same.mpr admitted)), if_pos admitted, List.map_cons,
              List.map_cons, induction, follow_along entered ref]
          · rw [if_neg (by rwa [decide_eq_true_eq, same]), if_neg admitted, induction]

theorem next_along (spells : SpellsNumbers spell) (server : EdgeServer) (maxDepth : Nat)
    (scans : List EdgeScan)
    (separate : ∀ node ∈ visited EdgeStep.target start path, node.Separate) :
    WalkRow.next maxDepth (scans.flatMap (EdgeScan.rows spell server))
        (WalkRow.along start path) =
      (extensions (scans.flatMap (EdgeScan.steps spell server))
        (admissible EdgeStep.source EdgeStep.target start maxDepth) path).map
          (WalkRow.along start) := by
  rw [WalkRow.next, extensions, Multiset.map_coe, List.map_map, List.filter_flatMap,
    List.map_flatMap, List.filter_flatMap, List.map_flatMap]
  congr 2
  funext scan
  exact next_scan spells server maxDepth separate scan

end Along

/-! ## Walks along paths -/

def SeparatePath (start : RecordNode) (path : List EdgeStep) : Prop :=
  ∀ node ∈ visited EdgeStep.target start path, node.Separate

theorem EdgeScan.steps_separate {spell : Rat → List Char} (spells : SpellsNumbers spell)
    {server : EdgeServer} (scan : EdgeScan) {step : EdgeStep}
    (found : step ∈ scan.steps spell server) : step.target.Separate := by
  obtain ⟨stored, _, along⟩ := List.mem_filterMap.mp found
  exact endNode_separate spells (EdgeScan.stepAlong_iff.mp along).2.1

/-- The rows of `walk` are those of the bounded simple paths, one each. -/
theorem walked_iff {spell : Rat → List Char} (spells : SpellsNumbers spell) {server : EdgeServer}
    {scans : List EdgeScan} {traversal : Traversal} {start : RecordNode} {allowed : EdgeStep → Prop}
    (begins : WalkRow.start traversal.startCollection (dumps spell traversal.startId) =
      WalkRow.along start [])
    (separate : start.Separate) (once : (scans.flatMap (EdgeScan.steps spell server)).Nodup)
    (listed : ∀ step, step ∈ scans.flatMap (EdgeScan.steps spell server) ↔ allowed step) :
    ∃ paths : Finset (List EdgeStep), (∀ path, path ∈ paths ↔
        SimplePath EdgeStep.source EdgeStep.target allowed start path ∧
          path.length ≤ traversal.maxDepth) ∧
      ∀ rows, Walked spell server scans traversal rows ↔
        rows = paths.val.map (WalkRow.along start) := by
  obtain ⟨paths, evaluates, members⟩ :=
    evaluates_simplePaths once listed start traversal.maxDepth
  refine ⟨paths, members, fun rows => ?_⟩
  have keeps : ∀ path, SeparatePath start path →
      ∀ other ∈ extensions (scans.flatMap (EdgeScan.steps spell server))
        (admissible EdgeStep.source EdgeStep.target start traversal.maxDepth) path,
        SeparatePath start other := by
    intro path kept other extended
    obtain ⟨step, member, _, rfl⟩ := mem_extensions.mp extended
    obtain ⟨scan, _, found⟩ := List.mem_flatMap.mp member
    rw [SeparatePath, visited_concat]
    exact List.forall_mem_append.mpr
      ⟨kept, List.forall_mem_singleton.mpr (scan.steps_separate spells found)⟩
  have walked : Walked spell server scans traversal (paths.val.map (WalkRow.along start)) := by
    have image := evaluates.map keeps
      (fun path kept => next_along spells server traversal.maxDepth scans kept)
      (fun path member => Multiset.mem_singleton.mp member ▸ List.forall_mem_singleton.mpr separate)
    rw [Walked, begins]
    rwa [Multiset.map_singleton] at image
  exact ⟨fun other => other.unique walked, fun same => same ▸ walked⟩

/-! ## Steps of a traversal -/

theorem EdgeScan.steps_nodup {spell : Rat → List Char} {server : EdgeServer} (scan : EdgeScan) :
    (scan.steps spell server).Nodup := by
  have indexes : ((server.rows scan.layout.table).zipIdx.map Prod.snd).Nodup := by
    rw [List.zipIdx_map_snd]
    exact List.nodup_range'
  refine List.pairwise_filterMap.mpr (((List.pairwise_map.mp indexes).filter _).imp ?_)
  rintro left right different step along other otherAlong rfl
  have first := (stepAlong_iff.mp along).2.2.2.1
  have second := (stepAlong_iff.mp otherAlong).2.2.2.1
  exact different (first.symm.trans second)

/-- A traversal follows undirected edges both ways, and directed ones in its
direction. -/
def TraversalDirection.Allows (direction : TraversalDirection) (directed reversed : Bool) : Prop :=
  directed = false ∨ direction = .any ∨ direction = if reversed then .inbound else .outbound

instance (direction : TraversalDirection) (directed reversed : Bool) :
    Decidable (direction.Allows directed reversed) :=
  inferInstanceAs (Decidable (_ ∨ _ ∨ _))

namespace PostgreSQLQueryTranslator

variable (translator : PostgreSQLQueryTranslator) (server : EdgeServer) (traversal : Traversal)

/-- The row is in the scope of the request, and the predicate of its relation
collection holds of it. -/
structure Selects (position : Nat) (ref : String) (layout : ResourceLayout)
    (stored : StoredEdge) : Prop where
  inScope : ∀ column ∈ translator.settings.scopeColumns,
    stored.scope column = server.scope column
  satisfies : ∀ predicate, traversal.relationPredicates.lookup ref = some predicate →
    ∃ condition, Query.compile ⟨[(ref, "r")], [(ref, layout)]⟩ (.relation position) [] predicate =
      .ok condition ∧ server.selects condition stored = true

/-- The step follows a stored edge in an orientation that is allowed. -/
def FollowsEdge (step : EdgeStep) : Prop :=
  ∃ layout relation stored, translator.layout step.ref = .ok layout ∧
    layout.relation = some relation ∧
    (server.rows layout.table)[step.index]? = some stored ∧
    translator.Selects server traversal step.position step.ref layout stored ∧
    traversal.direction.Allows relation.directed step.reversed ∧
    endNode translator.spell (if step.reversed then stored.target else stored.source) =
      some step.source ∧
    endNode translator.spell (if step.reversed then stored.source else stored.target) =
      some step.target

/-- The step follows an edge of a relation collection of the traversal. -/
def Follows (step : EdgeStep) : Prop :=
  traversal.relationCollections[step.position]? = some step.ref ∧
    translator.FollowsEdge server traversal step

/-! ## Scans of a traversal -/

/-- The scans of one relation collection. -/
def collectionScans (position : Nat) (ref : String) (layout : ResourceLayout)
    (relation : RelationLayout) (condition : QueryStatement) : List EdgeScan :=
  ([false, true].filter fun reversed =>
    traversal.direction.Allows relation.directed reversed).map fun reversed =>
      ⟨position, ref, layout, reversed, condition⟩

/-- The scans are those of the relation collection at a position. -/
def ScansOf (collection : String × Nat) (scans : List EdgeScan) : Prop :=
  ∃ layout relation condition, translator.layout collection.1 = .ok layout ∧
    layout.relation = some relation ∧
    translator.relationScope traversal collection.1 collection.2 layout = .ok condition ∧
    scans = collectionScans traversal collection.2 collection.1 layout relation condition

variable {translator server traversal}

theorem edgeParts_scans {collection : String × Nat} {parts : List QueryStatement}
    (compiled : translator.edgeParts traversal collection.1 collection.2 = .ok parts) :
    ∃ scans, translator.ScansOf traversal collection scans ∧
      parts = scans.map (EdgeScan.statement translator) := by
  obtain ⟨layout, layoutOk, compiled⟩ := bind_eq_ok compiled
  cases related : layout.relation with
  | none =>
      rw [related] at compiled
      exact nomatch compiled
  | some relation =>
      rw [related] at compiled
      obtain ⟨condition, conditionOk, compiled⟩ := bind_eq_ok compiled
      refine ⟨_, ⟨layout, relation, condition, layoutOk, related, conditionOk, rfl⟩, ?_⟩
      cases compiled
      cases walked : traversal.direction <;> cases directed : relation.directed <;>
        simp [collectionScans, TraversalDirection.Allows, walked, directed, EdgeScan.statement]

theorem relationScope_selects {position : Nat} {ref : String} {layout : ResourceLayout}
    {condition : QueryStatement}
    (compiled : translator.relationScope traversal ref position layout = .ok condition)
    (stored : StoredEdge) : server.selects condition stored = true ↔
      translator.Selects server traversal position ref layout stored := by
  have within : server.selects (translator.scopePredicate "r") stored = true ↔
      ∀ column ∈ translator.settings.scopeColumns,
        stored.scope column = server.scope column := by
    rw [server.inScope]
    simp only [List.all_eq_true, decide_eq_true_eq]
  unfold relationScope at compiled
  cases found : traversal.relationPredicates.lookup ref with
  | none =>
      rw [found] at compiled
      cases compiled
      rw [within]
      exact ⟨fun inside => ⟨inside, fun _ other => by cases found.symm.trans other⟩,
        Selects.inScope⟩
  | some predicate =>
      rw [found] at compiled
      obtain ⟨held, heldOk, compiled⟩ := bind_eq_ok compiled
      cases compiled
      rw [server.conjoined translator stored heldOk, Bool.and_eq_true, within]
      constructor
      · rintro ⟨inside, holds⟩
        refine ⟨inside, fun other same => ?_⟩
        cases found.symm.trans same
        exact ⟨held, heldOk, holds⟩
      · intro selects
        obtain ⟨other, otherOk, holds⟩ := selects.satisfies predicate found
        cases heldOk.symm.trans otherOk
        exact ⟨selects.inScope, holds⟩

theorem mem_steps {scan : EdgeScan} {step : EdgeStep} :
    step ∈ scan.steps translator.spell server ↔ ∃ stored,
      (server.rows scan.layout.table)[step.index]? = some stored ∧
        server.selects scan.condition stored = true ∧
        scan.stepAlong translator.spell (stored, step.index) = some step := by
  rw [EdgeScan.steps, List.mem_filterMap]
  constructor
  · rintro ⟨⟨stored, index⟩, member, along⟩
    obtain ⟨listed, selected⟩ := List.mem_filter.mp member
    have same : step.index = index := (EdgeScan.stepAlong_iff.mp along).2.2.2.1
    subst same
    exact ⟨stored, List.mk_mem_zipIdx_iff_getElem?.mp listed, selected, along⟩
  · rintro ⟨stored, listed, selected, along⟩
    exact ⟨_, List.mem_filter.mpr ⟨List.mk_mem_zipIdx_iff_getElem?.mpr listed, selected⟩, along⟩

theorem mem_collection_steps {collection : String × Nat} {scans : List EdgeScan}
    (scanned : translator.ScansOf traversal collection scans) {step : EdgeStep} :
    step ∈ scans.flatMap (EdgeScan.steps translator.spell server) ↔
      (step.ref, step.position) = collection ∧ translator.FollowsEdge server traversal step := by
  obtain ⟨layout, relation, condition, layoutOk, related, conditionOk, rfl⟩ := scanned
  rw [List.mem_flatMap]
  constructor
  · rintro ⟨scan, member, found⟩
    obtain ⟨reversed, oriented, rfl⟩ := List.mem_map.mp member
    obtain ⟨stored, listed, selected, along⟩ := mem_steps.mp found
    obtain ⟨left, entered, position, _, way, ref⟩ := EdgeScan.stepAlong_iff.mp along
    have allowed := of_decide_eq_true (List.mem_filter.mp oriented).2
    have held := (relationScope_selects conditionOk stored).mp selected
    dsimp only at position way ref
    subst way
    rw [← position, ← ref] at held
    exact ⟨by rw [ref, position], layout, relation, stored, ref ▸ layoutOk, related, listed, held,
      allowed, left, entered⟩
  · rintro ⟨rfl, other, otherRelation, stored, otherOk, otherRelated, listed, held, allowed, left,
      entered⟩
    cases layoutOk.symm.trans otherOk
    cases related.symm.trans otherRelated
    refine ⟨_, List.mem_map_of_mem (List.mem_filter.mpr ⟨?_, decide_eq_true allowed⟩), ?_⟩
    · cases step.reversed <;> decide
    · have selected := (relationScope_selects conditionOk stored).mpr held
      exact mem_steps.mpr ⟨stored, listed, selected,
        EdgeScan.stepAlong_iff.mpr ⟨left, entered, rfl, rfl, rfl, rfl⟩⟩

theorem collection_steps_nodup {collection : String × Nat} {scans : List EdgeScan}
    (scanned : translator.ScansOf traversal collection scans) :
    (scans.flatMap (EdgeScan.steps translator.spell server)).Nodup := by
  obtain ⟨layout, relation, condition, _, _, _, rfl⟩ := scanned
  refine List.nodup_flatMap.mpr ⟨fun scan _ => scan.steps_nodup, ?_⟩
  have orientations : ([false, true] : List Bool).Nodup := by decide
  refine List.pairwise_map.mpr ((orientations.filter _).imp ?_)
  intro left right different step first second
  obtain ⟨_, _, _, along⟩ := mem_steps.mp first
  obtain ⟨_, _, _, otherAlong⟩ := mem_steps.mp second
  have way := (EdgeScan.stepAlong_iff.mp along).2.2.2.2.1
  have otherWay := (EdgeScan.stepAlong_iff.mp otherAlong).2.2.2.2.1
  exact different (way.symm.trans otherWay)

theorem mem_collections_steps {collections : List (String × Nat)} {groups : List (List EdgeScan)}
    (scanned : List.Forall₂ (translator.ScansOf traversal) collections groups) {step : EdgeStep} :
    step ∈ groups.flatten.flatMap (EdgeScan.steps translator.spell server) ↔
      (step.ref, step.position) ∈ collections ∧ translator.FollowsEdge server traversal step := by
  induction scanned with
  | nil => simp
  | cons first _ induction =>
      rw [List.flatten_cons, List.flatMap_append, List.mem_append, induction,
        mem_collection_steps first, List.mem_cons, or_and_right]

theorem collections_steps_nodup {collections : List (String × Nat)}
    {groups : List (List EdgeScan)}
    (scanned : List.Forall₂ (translator.ScansOf traversal) collections groups)
    (positions : (collections.map Prod.snd).Nodup) :
    (groups.flatten.flatMap (EdgeScan.steps translator.spell server)).Nodup := by
  induction scanned with
  | nil => exact List.nodup_nil
  | cons first others induction =>
      obtain ⟨apart, rest⟩ := List.nodup_cons.mp positions
      rw [List.flatten_cons, List.flatMap_append]
      refine List.nodup_append.mpr ⟨collection_steps_nodup first, induction rest, ?_⟩
      rintro step here other there rfl
      obtain ⟨same, _⟩ := (mem_collection_steps first).mp here
      obtain ⟨member, _⟩ := (mem_collections_steps others).mp there
      exact apart (same ▸ List.mem_map_of_mem member)

/-- The edges of a traversal are those of its scans. -/
theorem mapM_edgeParts {collections : List (String × Nat)} {edges : List (List QueryStatement)}
    (compiled : List.Forall₂ (fun collection parts =>
      translator.edgeParts traversal collection.1 collection.2 = .ok parts) collections edges) :
    ∃ groups, List.Forall₂ (translator.ScansOf traversal) collections groups ∧
      edges.flatten = groups.flatten.map (EdgeScan.statement translator) := by
  induction compiled with
  | nil => exact ⟨[], .nil, rfl⟩
  | cons first _ induction =>
      obtain ⟨scans, scanned, rfl⟩ := edgeParts_scans first
      obtain ⟨groups, others, same⟩ := induction
      refine ⟨scans :: groups, .cons scanned others, ?_⟩
      rw [List.flatten_cons, List.flatten_cons, List.map_append, same]

/-! ## Rows of a traversal -/

/-- The node of the record that a traversal starts from. -/
def startNode (translator : PostgreSQLQueryTranslator) (traversal : Traversal) : RecordNode :=
  ⟨traversal.startCollection, storedText translator.spell traversal.startId⟩

/-- The recursive query of a traversal ends, and the rows that it returns are
those of the simple paths between the depths, one for each. -/
theorem traversal_rows {operation : QueryOperation} {context : TranslationContext}
    {compiled : CompiledQuery} (spells : SpellsNumbers translator.spell) (server : EdgeServer)
    (accepted : translator.compileTraversal operation traversal context = .ok compiled)
    (stored : dumps translator.spell traversal.startId =
      storedText translator.spell traversal.startId) :
    ∃ scans, compiled.statement = translator.traversalStatement operation traversal
        (scans.map (EdgeScan.statement translator)) ∧
      (∃ rows, Walked translator.spell server scans traversal rows) ∧
      ∀ rows, Walked translator.spell server scans traversal rows →
        ∃ paths : Finset (List EdgeStep), (∀ path, path ∈ paths ↔
            SimplePath EdgeStep.source EdgeStep.target (translator.Follows server traversal)
              (translator.startNode traversal) path ∧
            traversal.minDepth ≤ path.length ∧ path.length ≤ traversal.maxDepth) ∧
          returnedRows traversal rows =
            paths.val.map (WalkRow.along (translator.startNode traversal)) := by
  obtain ⟨edges, edgesOk, statement⟩ := compileTraversal_statement accepted
  obtain ⟨groups, scanned, same⟩ := mapM_edgeParts (mapM_eq_ok edgesOk)
  refine ⟨groups.flatten, by rw [statement, same], ?_⟩
  have positions : (traversal.relationCollections.zipIdx.map Prod.snd).Nodup := by
    rw [List.zipIdx_map_snd]
    exact List.nodup_range'
  have once := @collections_steps_nodup translator server traversal _ _ scanned positions
  have listed : ∀ step, step ∈ groups.flatten.flatMap (EdgeScan.steps translator.spell server) ↔
      translator.Follows server traversal step := by
    intro step
    rw [mem_collections_steps scanned, List.mk_mem_zipIdx_iff_getElem?]
    rfl
  have begins : WalkRow.start traversal.startCollection (dumps translator.spell traversal.startId) =
      WalkRow.along (translator.startNode traversal) [] := by
    rw [stored]
    rfl
  have separate : (translator.startNode traversal).Separate := separator_storedText spells _
  obtain ⟨paths, members, walked⟩ := walked_iff spells begins separate once listed
  refine ⟨⟨_, (walked _).mpr rfl⟩, fun rows evaluated => ?_⟩
  cases (walked rows).mp evaluated
  refine ⟨paths.filter fun path =>
    traversal.minDepth ≤ path.length ∧ path.length ≤ traversal.maxDepth, fun path => ?_, ?_⟩
  · rw [Finset.mem_filter, members]
    tauto
  · rw [returnedRows, Multiset.filter_map]
    rfl

/-! ## Items that follow each other -/

/-- Every condition holds in the scope of the request. -/
def selectsInScope (scope : String → String) (condition : QueryStatement)
    (stored : StoredEdge) : Bool :=
  condition.parameters.all fun parameter =>
    match parameter.origin with
    | .scope _ column => stored.scope column = scope column
    | _ => true

/-- A database with the given rows of every relation. -/
def scopeServer (rows : List StoredEdge) (scope : String → String) : EdgeServer where
  rows _ := rows
  scope := scope
  selects := selectsInScope scope
  inScope translator stored := by
    rw [selectsInScope, scopePredicate, List.all_map]
    rfl
  conjoined translator _ _ _ compiled stored _ := by
    simp [selectsInScope, conjunction, allParameters]

def workEdge (source target : String) : StoredEdge where
  source := some (workStart (.string source)).toJson
  target := some (workStart (.string target)).toJson
  scope _ := ""

/-- Two items that follow each other, one of which follows itself. -/
def cyclicServer : EdgeServer :=
  scopeServer [workEdge "first" "second", workEdge "second" "first", workEdge "first" "first"]
    fun _ => ""

theorem followsTraversal_rows : ∃ compiled,
    followsTranslator.compileTraversal (followsPlan (.string "first") 5).operation
        (followsTraversal (.string "first")) workContext = .ok compiled ∧
      ∃ scans, compiled.statement = followsTranslator.traversalStatement
          (followsPlan (.string "first") 5).operation (followsTraversal (.string "first"))
          (scans.map (EdgeScan.statement followsTranslator)) ∧
        (∃ rows, Walked followsTranslator.spell cyclicServer scans
          (followsTraversal (.string "first")) rows) ∧
        ∀ rows, Walked followsTranslator.spell cyclicServer scans
            (followsTraversal (.string "first")) rows →
          ∃ paths : Finset (List EdgeStep), (∀ path, path ∈ paths ↔
              SimplePath EdgeStep.source EdgeStep.target
                (followsTranslator.Follows cyclicServer (followsTraversal (.string "first")))
                (followsTranslator.startNode (followsTraversal (.string "first"))) path ∧
              (followsTraversal (.string "first")).minDepth ≤ path.length ∧
              path.length ≤ (followsTraversal (.string "first")).maxDepth) ∧
            returnedRows (followsTraversal (.string "first")) rows =
              paths.val.map (WalkRow.along
                (followsTranslator.startNode (followsTraversal (.string "first")))) := by
  obtain ⟨compiled, accepted⟩ : ∃ compiled,
      followsTranslator.compileTraversal (followsPlan (.string "first") 5).operation
        (followsTraversal (.string "first")) workContext = .ok compiled := ⟨_, rfl⟩
  exact ⟨compiled, accepted,
    traversal_rows followsTranslator_spells cyclicServer accepted (by decide)⟩

end PostgreSQLQueryTranslator

end MeridianPostgreSQL.Query
