import SurfaceLoom.Core.EvidenceGraph

/-! # Which evidence graphs are accepted

The checks by key are checks by reference, and elimination tells the graphs without
cycles. -/
namespace SurfaceLoom.Core.EvidenceGraph
open SurfaceLoom.Lib SurfaceLoom.Lib.JsonText

/-! ## Keys determine references -/

theorem texts_value (number : NumberText → Unit) (parts : List String) :
    (texts parts).value number =
      .array (parts.map fun part => .string (part.toList.flatMap fun c => utf16 (code c))) := by
  unfold texts
  rw [Tree.value]
  congr 1
  induction parts with
  | nil => rfl
  | cons part parts ih =>
    rw [List.map_cons, Tree.valueItems, ih, Tree.value, Str.ofString_units, List.map_cons]

theorem quoted_scalars (s : String) : Scalars (quoted (Str.ofString s) []) := by
  have hquote : Scalars [code '"'] := Scalars.map_code ['"']
  exact hquote.append ((Str.ofString_text s).1.append hquote)

theorem texts_scalars (parts : List String) : Scalars (texts parts).write := by
  have hitems : ∀ parts : List String,
      Scalars (Tree.writeItems (parts.map fun part => .string (Str.ofString part))) := by
    intro parts
    induction parts with
    | nil =>
      intro n hn
      cases hn
    | cons part rest ih =>
      cases rest with
      | nil =>
        rw [List.map_cons, List.map_nil, Tree.writeItems, Tree.write]
        exact quoted_scalars part
      | cons next rest =>
        rw [List.map_cons, List.map_cons, Tree.writeItems, Tree.write]
        · exact (quoted_scalars part).append ((Scalars.map_code [',']).append ih)
        · intro hnil
          cases hnil
  unfold texts
  rw [Tree.write]
  exact (Scalars.map_code ['[']).append ((hitems parts).append (Scalars.map_code [']']))

theorem stringify_injective {parts parts' : List String}
    (h : stringify parts = stringify parts') : parts = parts' := by
  have hchars := congrArg String.toList h
  unfold stringify at hchars
  rw [String.toList_ofList, String.toList_ofList] at hchars
  have hwrite : (texts parts).write = (texts parts').write := by
    rw [← code_chars (texts_scalars parts), ← code_chars (texts_scalars parts'), hchars]
  have hspace : ∀ c ∈ ([] : List Nat), isWhite c = true := by
    intro c hc
    cases hc
  have hparse := parse_write (fun _ => ()) (texts parts) hspace
  rw [hwrite, parse_write (fun _ => ()) (texts parts') hspace, texts_value, texts_value] at hparse
  injection hparse with hvalue
  injection hvalue with hlist
  refine (List.map_injective_iff.mpr ?_) hlist.symm
  intro s s' hs
  injection hs with hunits
  rw [← String.ofList_toList (s := s), ← String.ofList_toList (s := s'),
    ← fromUnits_utf16 s.toList, ← fromUnits_utf16 s'.toList, hunits]

theorem kind_name_injective : ∀ {a b : EvidenceKind}, a.name = b.name → a = b := by
  intro a b h
  cases a <;> cases b <;> first | rfl | exact absurd h (by decide)

theorem relation_name_injective : ∀ {a b : EvidenceRelationKind}, a.name = b.name → a = b := by
  intro a b h
  cases a <;> cases b <;> first | rfl | exact absurd h (by decide)

theorem parts_kind (ref : EvidenceRef) : ref.parts.head? = some ref.kind.name := by
  cases ref <;> rfl

theorem parts_injective {a b : EvidenceRef} (h : a.parts = b.parts) : a = b := by
  have hkind : a.kind = b.kind := by
    refine kind_name_injective (Option.some.inj ?_)
    rw [← parts_kind, ← parts_kind, h]
  cases a <;> cases b <;> first | (simp_all [EvidenceRef.parts]; done) | cases hkind

theorem evidenceRefKey_injective {a b : EvidenceRef} (h : evidenceRefKey a = evidenceRefKey b) :
    a = b := parts_injective (stringify_injective h)

theorem key_inj {a b : EvidenceRef} : evidenceRefKey a = evidenceRefKey b ↔ a = b :=
  ⟨evidenceRefKey_injective, congrArg evidenceRefKey⟩

theorem edgeKey_inj {a b : EvidenceRelation} : edgeKey a = edgeKey b ↔
    (a.relation, a.from_, a.to_) = (b.relation, b.from_, b.to_) := by
  constructor
  · intro h
    have hparts := stringify_injective h
    injection hparts with hrelation hends
    injection hends with hfrom hto
    injection hto with hto
    rw [relation_name_injective hrelation, evidenceRefKey_injective hfrom,
      evidenceRefKey_injective hto]
  · intro h
    injection h with hrelation hends
    injection hends with hfrom hto
    unfold edgeKey
    rw [hrelation, hfrom, hto]

/-! ## What the checks accept -/

/-- The nodes that a node names as its parents. -/
def EvidenceRef.parents : EvidenceRef → List EvidenceRef
  | caseExecution _ => []
  | toolCall id attemptId runId _ => [.attempt id attemptId, .agentRun id attemptId runId]
  | attempt id attemptId => [.attempt id attemptId]
  | step id attemptId _ => [.attempt id attemptId]
  | agentRun id attemptId _ => [.attempt id attemptId]
  | artifact id attemptId _ => [.attempt id attemptId]

/-- The endpoints that each kind of relation may have. -/
def endpointMatrix : EvidenceRelationKind → List (EvidenceKind × EvidenceKind)
  | .contains => [(.caseExecution, .attempt), (.attempt, .step), (.attempt, .agentRun),
      (.attempt, .artifact), (.agentRun, .toolCall)]
  | .produced | .observedBy => [(.step, .artifact), (.agentRun, .artifact), (.toolCall, .artifact)]
  | .attachedTo => [(.artifact, .attempt), (.artifact, .step), (.artifact, .agentRun),
      (.artifact, .toolCall)]
  | .declaredCause =>
    [.step, .agentRun, .toolCall, .artifact].flatMap fun from_ =>
      [.step, .agentRun, .toolCall, .artifact].map fun to_ => (from_, to_)

/-- Both references belong to one attempt, or one of them is the case execution. -/
def SameAttempt (a b : EvidenceRef) : Prop :=
  ∀ attempt ∈ a.attemptId, ∀ attempt' ∈ b.attemptId, attempt = attempt'

/-- A relation between two nodes that its kind allows. -/
structure Relates (nodes : List EvidenceNode) (edge : EvidenceRelation) : Prop where
  from_ : edge.from_ ∈ nodes.map (·.ref)
  to_ : edge.to_ ∈ nodes.map (·.ref)
  attempt : SameAttempt edge.from_ edge.to_
  endpoints : (edge.from_.kind, edge.to_.kind) ∈ endpointMatrix edge.relation

def Joined (relations : List EvidenceRelation) (a b : EvidenceRef) : Prop :=
  ∃ edge ∈ relations, edge.from_ = a ∧ edge.to_ = b

/-- A graph of one case without cycles. -/
structure Acceptable (caseExecutionId : String) (nodes : List EvidenceNode)
    (relations : List EvidenceRelation) : Prop where
  size : nodes.length ≤ maxItems ∧ relations.length ≤ maxItems
  distinct : (nodes.map (·.ref)).Nodup
  oneCase : ∀ item ∈ nodes, item.ref.caseExecutionId = caseExecutionId
  parents : ∀ item ∈ nodes, ∀ parent ∈ item.ref.parents, parent ∈ nodes.map (·.ref)
  relates : ∀ edge ∈ relations, Relates nodes edge
  ids : (relations.map (·.id)).Nodup
  triples : (relations.map fun edge => (edge.relation, edge.from_, edge.to_)).Nodup
  acyclic : ∀ ref, ¬Relation.TransGen (Joined relations) ref ref

theorem validEndpoints_iff (relation : EvidenceRelationKind) (from_ to_ : EvidenceKind) :
    validEndpoints relation from_ to_ = true ↔ (from_, to_) ∈ endpointMatrix relation := by
  cases relation <;> cases from_ <;> cases to_ <;> decide

theorem compatibleAttempt_iff (a b : EvidenceRef) :
    compatibleAttempt a b = true ↔ SameAttempt a b := by
  unfold compatibleAttempt SameAttempt
  cases a <;> cases b <;> simp [EvidenceRef.kind, EvidenceRef.attemptId]

theorem require_ok {condition : Bool} {message : String} :
    require condition message = .ok () ↔ condition = true := by
  unfold require
  cases condition <;> simp

theorem has_set {ν : Type} (m : OrderedMap String ν) (k k' : String) (v : ν) :
    (m.set k v).has k' = true ↔ k' = k ∨ m.has k' = true := by
  unfold OrderedMap.has
  rw [OrderedMap.get?_set]
  by_cases h : k' = k <;> simp [h]

def collected (nodes : List EvidenceNode) (m : OrderedMap String EvidenceNode) :
    OrderedMap String EvidenceNode :=
  nodes.foldl (fun m item => m.set (evidenceRefKey item.ref) item) m

theorem has_collected (nodes : List EvidenceNode) (m : OrderedMap String EvidenceNode)
    (k : String) : (collected nodes m).has k = true ↔
      m.has k = true ∨ k ∈ nodes.map (evidenceRefKey ·.ref) := by
  unfold collected
  induction nodes generalizing m with
  | nil => simp
  | cons item nodes ih =>
    rw [List.foldl_cons, ih, has_set, List.map_cons, List.mem_cons]
    tauto

section
variable {caseExecutionId : String} {nodes : List EvidenceNode}

theorem collectNodes_ok (m m' : OrderedMap String EvidenceNode) :
    collectNodes caseExecutionId nodes m = .ok m' ↔
      (∀ item ∈ nodes, item.ref.caseExecutionId = caseExecutionId) ∧
      (nodes.map (evidenceRefKey ·.ref)).Nodup ∧
      (∀ item ∈ nodes, ¬m.has (evidenceRefKey item.ref) = true) ∧ collected nodes m = m' := by
  induction nodes generalizing m with
  | nil =>
    rw [collectNodes]
    simp [collected]
  | cons item nodes ih =>
    have hcollected : collected (item :: nodes) m =
        collected nodes (m.set (evidenceRefKey item.ref) item) := rfl
    rw [collectNodes, hcollected]
    by_cases hcase : item.ref.caseExecutionId = caseExecutionId
    · rw [if_neg (not_not.mpr hcase)]
      by_cases hold : m.has (evidenceRefKey item.ref) = true
      · rw [if_pos hold]
        constructor
        · intro h
          cases h
        · rintro ⟨-, -, hnew, -⟩
          exact absurd hold (hnew item List.mem_cons_self)
      · rw [if_neg hold, ih, List.map_cons, List.nodup_cons]
        simp only [has_set, List.mem_cons, forall_eq_or_imp, not_or, List.mem_map, not_exists,
          not_and]
        constructor
        · rintro ⟨hall, hnodup, hnew, heq⟩
          exact ⟨⟨hcase, hall⟩, ⟨fun item' hmem => (hnew item' hmem).1, hnodup⟩,
            ⟨hold, fun item' hmem => (hnew item' hmem).2⟩, heq⟩
        · rintro ⟨⟨-, hall⟩, ⟨hfresh, hnodup⟩, ⟨-, hnew⟩, heq⟩
          exact ⟨hall, hnodup, fun item' hmem => ⟨hfresh item' hmem, hnew item' hmem⟩, heq⟩
    · rw [if_pos hcase]
      constructor
      · intro h
        cases h
      · rintro ⟨hall, -⟩
        exact absurd (hall item List.mem_cons_self) hcase

variable {has : String → Bool} {refs : List EvidenceRef}

theorem validateParent_ok (hhas : ∀ ref, has (evidenceRefKey ref) = true ↔ ref ∈ refs)
    (ref : EvidenceRef) :
    validateParent has ref = .ok () ↔ ∀ parent ∈ ref.parents, parent ∈ refs := by
  unfold validateParent
  cases ref with
  | toolCall id attemptId runId callId =>
    simp only [EvidenceRef.attemptId, EvidenceRef.caseExecutionId, EvidenceRef.parents, hhas,
      List.mem_cons, List.not_mem_nil, or_false, forall_eq_or_imp, forall_eq]
    split
    · rename_i hnot
      simp [hnot]
    · rename_i hattempt
      rw [not_not] at hattempt
      split
      · rename_i hnot
        simp [hnot]
      · rename_i hrun
        rw [not_not] at hrun
        simp [hattempt, hrun]
  | caseExecution id => simp [EvidenceRef.attemptId, EvidenceRef.parents]
  | attempt id attemptId =>
    simp only [EvidenceRef.attemptId, EvidenceRef.caseExecutionId, EvidenceRef.parents, hhas]
    split <;> simp_all
  | step id attemptId stepId =>
    simp only [EvidenceRef.attemptId, EvidenceRef.caseExecutionId, EvidenceRef.parents, hhas]
    split <;> simp_all
  | agentRun id attemptId runId =>
    simp only [EvidenceRef.attemptId, EvidenceRef.caseExecutionId, EvidenceRef.parents, hhas]
    split <;> simp_all
  | artifact id attemptId artifactId =>
    simp only [EvidenceRef.attemptId, EvidenceRef.caseExecutionId, EvidenceRef.parents, hhas]
    split <;> simp_all

theorem validateParents_ok (hhas : ∀ ref, has (evidenceRefKey ref) = true ↔ ref ∈ refs)
    (nodes : List EvidenceNode) : validateParents has nodes = .ok () ↔
      ∀ item ∈ nodes, ∀ parent ∈ item.ref.parents, parent ∈ refs := by
  induction nodes with
  | nil => simp [validateParents]
  | cons item nodes ih =>
    rw [validateParents, Checked.bind_unit_ok, validateParent_ok hhas, ih]
    simp only [List.mem_cons, forall_eq_or_imp]

/-- An edge that a round accepts, apart from the ids and keys before it. -/
def Fits (caseExecutionId : String) (refs : List EvidenceRef) (edge : EvidenceRelation) : Prop :=
  (edge.from_ ∈ refs ∧ edge.to_ ∈ refs) ∧
    (edge.from_.caseExecutionId = caseExecutionId ∧ edge.to_.caseExecutionId = caseExecutionId) ∧
    SameAttempt edge.from_ edge.to_ ∧
    (edge.from_.kind, edge.to_.kind) ∈ endpointMatrix edge.relation

theorem checkRelation_ok (hhas : ∀ ref, has (evidenceRefKey ref) = true ↔ ref ∈ refs)
    (relationIds edgeKeys : List String) (edge : EvidenceRelation) :
    checkRelation caseExecutionId has relationIds edgeKeys edge = .ok () ↔
      edge.id ∉ relationIds ∧ Fits caseExecutionId refs edge ∧ edgeKey edge ∉ edgeKeys := by
  unfold checkRelation Fits
  rw [← compatibleAttempt_iff, ← validEndpoints_iff, ← hhas, ← hhas]
  unfold validRelationEndpoints
  split
  · rename_i hid
    simp [hid]
  · split
    · rename_i hid hunknown
      refine ⟨fun h => (by cases h), fun h => ?_⟩
      rcases hunknown with hfrom | hto
      · exact absurd h.2.1.1.1 hfrom
      · exact absurd h.2.1.1.2 hto
    · rename_i hid hknown
      rw [not_or, not_not, not_not] at hknown
      split
      · rename_i hcross
        refine ⟨fun h => (by cases h), fun h => ?_⟩
        rcases hcross with hfrom | hto
        · exact absurd h.2.1.2.1.1 hfrom
        · exact absurd h.2.1.2.1.2 hto
      · rename_i hcase
        rw [not_or, not_not, not_not] at hcase
        split
        · rename_i hattempt
          exact ⟨fun h => (by cases h), fun h => absurd h.2.1.2.2.1 hattempt⟩
        · rename_i hattempt
          rw [not_not] at hattempt
          split
          · rename_i hends
            exact ⟨fun h => (by cases h), fun h => absurd h.2.1.2.2.2 hends⟩
          · rename_i hends
            rw [not_not] at hends
            split
            · rename_i hdouble
              exact ⟨fun h => (by cases h), fun h => absurd hdouble h.2.2⟩
            · rename_i hnew
              exact ⟨fun _ => ⟨hid, ⟨hknown, hcase, hattempt, hends⟩, hnew⟩, fun _ => rfl⟩

theorem checkRelations_ok (hhas : ∀ ref, has (evidenceRefKey ref) = true ↔ ref ∈ refs)
    (relations : List EvidenceRelation) (relationIds edgeKeys : List String) :
    checkRelations caseExecutionId has relationIds edgeKeys relations = .ok () ↔
      (∀ edge ∈ relations, Fits caseExecutionId refs edge) ∧
      ((relations.map (·.id)).Nodup ∧ ∀ edge ∈ relations, edge.id ∉ relationIds) ∧
      ((relations.map edgeKey).Nodup ∧ ∀ edge ∈ relations, edgeKey edge ∉ edgeKeys) := by
  induction relations generalizing relationIds edgeKeys with
  | nil => simp [checkRelations]
  | cons edge relations ih =>
    rw [checkRelations, Checked.bind_unit_ok, checkRelation_ok hhas, ih, List.map_cons,
      List.map_cons, List.nodup_cons, List.nodup_cons]
    simp only [List.mem_cons, forall_eq_or_imp, not_or, List.mem_map, not_exists, not_and]
    constructor
    · rintro ⟨⟨hid, hfits, hkey⟩, hall, ⟨hids, hnew⟩, hkeys, hfresh⟩
      exact ⟨⟨hfits, hall⟩, ⟨⟨fun e he => (hnew e he).1, hids⟩, hid, fun e he => (hnew e he).2⟩,
        ⟨fun e he => (hfresh e he).1, hkeys⟩, hkey, fun e he => (hfresh e he).2⟩
    · rintro ⟨⟨hfits, hall⟩, ⟨⟨hnew, hids⟩, hid, hold⟩, ⟨hfresh, hkeys⟩, hkey, hother⟩
      exact ⟨⟨hid, hfits, hkey⟩, hall, ⟨hids, fun e he => ⟨hnew e he, hold e he⟩⟩, hkeys,
        fun e he => ⟨hfresh e he, hother e he⟩⟩

end

/-! ## Cycles -/

theorem joined_edge {relations : List EvidenceRelation} {a b : EvidenceRef}
    (h : Relation.TransGen (Joined relations) a b) :
    Relation.TransGen (Elimination.Edge (edgesOf relations)) (evidenceRefKey a)
      (evidenceRefKey b) := by
  refine h.lift evidenceRefKey fun a b hjoined => ?_
  obtain ⟨edge, hedge, rfl, rfl⟩ := hjoined
  exact List.mem_map.mpr ⟨edge, hedge, rfl⟩

theorem edge_joined {relations : List EvidenceRelation} {v w : String}
    (h : Relation.TransGen (Elimination.Edge (edgesOf relations)) v w) :
    ∃ a b, evidenceRefKey a = v ∧ evidenceRefKey b = w ∧
      Relation.TransGen (Joined relations) a b := by
  induction h with
  | single hedge =>
    obtain ⟨edge, hmem, heq⟩ := List.mem_map.mp hedge
    cases heq
    exact ⟨edge.from_, edge.to_, rfl, rfl, .single ⟨edge, hmem, rfl, rfl⟩⟩
  | tail _ hedge ih =>
    obtain ⟨a, b, ha, hb, hpath⟩ := ih
    obtain ⟨edge, hmem, heq⟩ := List.mem_map.mp hedge
    injection heq with hfrom hto
    refine ⟨a, edge.to_, ha, hto, hpath.tail ⟨edge, hmem, ?_, rfl⟩⟩
    exact evidenceRefKey_injective (hfrom.trans hb.symm)

theorem rejectCycles_ok (relations : List EvidenceRelation) : rejectCycles relations = .ok () ↔
    ∀ ref, ¬Relation.TransGen (Joined relations) ref ref := by
  have hcycles : (∀ v, ¬Relation.TransGen (Elimination.Edge (edgesOf relations)) v v) ↔
      ∀ ref, ¬Relation.TransGen (Joined relations) ref ref := by
    constructor
    · intro h ref hcycle
      exact h _ (joined_edge hcycle)
    · intro h v hcycle
      obtain ⟨a, b, ha, hb, hpath⟩ := edge_joined hcycle
      cases evidenceRefKey_injective (ha.trans hb.symm)
      exact h a hpath
  rw [← hcycles, ← Elimination.visited_all_iff]
  unfold rejectCycles
  simp only
  split
  · rename_i hne
    exact ⟨fun h => (by cases h), fun h => absurd h hne⟩
  · rename_i heq
    exact ⟨fun _ => not_not.mp heq, fun _ => rfl⟩

/-! ## Exactness -/

theorem keys_nodup (nodes : List EvidenceNode) :
    (nodes.map (evidenceRefKey ·.ref)).Nodup ↔ (nodes.map (·.ref)).Nodup := by
  have hcomp : nodes.map (evidenceRefKey ·.ref) = (nodes.map (·.ref)).map evidenceRefKey := by
    rw [List.map_map]
    rfl
  rw [hcomp]
  exact List.nodup_map_iff fun a b h => evidenceRefKey_injective h

theorem edgeKeys_nodup (relations : List EvidenceRelation) : (relations.map edgeKey).Nodup ↔
    (relations.map fun edge => (edge.relation, edge.from_, edge.to_)).Nodup := by
  unfold List.Nodup
  rw [List.pairwise_map, List.pairwise_map]
  constructor
  · exact fun h => h.imp fun hne heq => hne (edgeKey_inj.mpr heq)
  · exact fun h => h.imp fun hne heq => hne (edgeKey_inj.mp heq)

theorem checks_ok {caseExecutionId : String} {nodes : List EvidenceNode}
    {relations : List EvidenceRelation} {context : EvidenceContext} :
    defineEvidenceContext caseExecutionId nodes relations = .ok context ↔
      (nodes.length ≤ maxItems && relations.length ≤ maxItems) = true ∧
      ∃ nodeByKey, collectNodes caseExecutionId nodes .empty = .ok nodeByKey ∧
        nodeByKey.has (evidenceRefKey (.caseExecution caseExecutionId)) = true ∧
        validateParents nodeByKey.has nodes = .ok () ∧
        checkRelations caseExecutionId nodeByKey.has [] [] relations = .ok () ∧
        rejectCycles relations = .ok () ∧ ⟨caseExecutionId, nodes, relations⟩ = context := by
  unfold defineEvidenceContext
  rw [Checked.bind_unit_ok, require_ok, Checked.bind_ok]
  refine and_congr_right fun _ => exists_congr fun nodeByKey => and_congr_right fun _ => ?_
  rw [Checked.bind_unit_ok, require_ok, Checked.bind_unit_ok, Checked.bind_unit_ok,
    Checked.bind_unit_ok]
  refine and_congr_right fun _ => and_congr_right fun _ => and_congr_right fun _ =>
    and_congr_right fun _ => ?_
  exact ⟨Except.ok.inj, congrArg _⟩

theorem defineEvidenceContext_iff (caseExecutionId : String) (nodes : List EvidenceNode)
    (relations : List EvidenceRelation) :
    (∃ context, defineEvidenceContext caseExecutionId nodes relations = .ok context) ↔
      Acceptable caseExecutionId nodes relations ∧
        .caseExecution caseExecutionId ∈ nodes.map (·.ref) := by
  have hhas : ∀ ref, (collected nodes .empty).has (evidenceRefKey ref) = true ↔
      ref ∈ nodes.map (·.ref) := by
    intro ref
    rw [has_collected, List.mem_map, List.mem_map]
    constructor
    · rintro (hold | ⟨item, hmem, hkey⟩)
      · cases hold
      · exact ⟨item, hmem, evidenceRefKey_injective hkey⟩
    · rintro ⟨item, hmem, rfl⟩
      exact .inr ⟨item, hmem, rfl⟩
  constructor
  · rintro ⟨context, hok⟩
    obtain ⟨hsize, nodeByKey, hnodes, hroot, hparents, hrelations, hcycles, -⟩ := checks_ok.mp hok
    obtain ⟨hcase, hkeys, -, rfl⟩ := (collectNodes_ok _ _).mp hnodes
    rw [Bool.and_eq_true, decide_eq_true_eq, decide_eq_true_eq] at hsize
    rw [validateParents_ok hhas] at hparents
    rw [checkRelations_ok hhas] at hrelations
    obtain ⟨hfits, ⟨hids, -⟩, htriples, -⟩ := hrelations
    refine ⟨⟨hsize, (keys_nodup nodes).mp hkeys, hcase, hparents, ?_, hids,
      (edgeKeys_nodup relations).mp htriples, (rejectCycles_ok relations).mp hcycles⟩,
      (hhas _).mp hroot⟩
    intro edge hedge
    obtain ⟨⟨hfrom, hto⟩, -, hattempt, hends⟩ := hfits edge hedge
    exact ⟨hfrom, hto, hattempt, hends⟩
  · rintro ⟨h, hroot⟩
    have hnew : ∀ item ∈ nodes,
        ¬(OrderedMap.empty : OrderedMap String EvidenceNode).has (evidenceRefKey item.ref) = true := by
      intro item _ hold
      cases hold
    have hrelations : checkRelations caseExecutionId (collected nodes .empty).has [] [] relations =
        .ok () := by
      refine (checkRelations_ok hhas relations [] []).mpr ⟨?_, ⟨h.ids, ?_⟩,
        (edgeKeys_nodup relations).mpr h.triples, ?_⟩
      · intro edge hedge
        have hrelates := h.relates edge hedge
        obtain ⟨item, hitem, hfrom⟩ := List.mem_map.mp hrelates.from_
        obtain ⟨item', hitem', hto⟩ := List.mem_map.mp hrelates.to_
        refine ⟨⟨hrelates.from_, hrelates.to_⟩, ⟨?_, ?_⟩, hrelates.attempt, hrelates.endpoints⟩
        · rw [← hfrom]
          exact h.oneCase item hitem
        · rw [← hto]
          exact h.oneCase item' hitem'
      · intro edge _
        exact List.not_mem_nil
      · intro edge _
        exact List.not_mem_nil
    refine ⟨_, checks_ok.mpr ⟨?_, collected nodes .empty,
      (collectNodes_ok _ _).mpr ⟨h.oneCase, (keys_nodup nodes).mpr h.distinct, hnew, rfl⟩,
      (hhas _).mpr hroot, (validateParents_ok hhas nodes).mpr h.parents, hrelations,
      (rejectCycles_ok relations).mpr h.acyclic, rfl⟩⟩
    rw [Bool.and_eq_true, decide_eq_true_eq, decide_eq_true_eq]
    exact h.size

/-- The empty graph lacks nothing but its case execution, and is refused. -/
theorem empty_refused : Acceptable "case-1" [] [] ∧
    ¬∃ context, defineEvidenceContext "case-1" [] [] = .ok context := by
  refine ⟨⟨by decide, .nil, ?_, ?_, ?_, .nil, .nil, ?_⟩, ?_⟩
  · intro item hitem
    cases hitem
  · intro item hitem
    cases hitem
  · intro edge hedge
    cases hedge
  · intro ref hcycle
    obtain ⟨b, hfirst, -⟩ := Relation.TransGen.head'_iff.mp hcycle
    obtain ⟨edge, hedge, -⟩ := hfirst
    cases hedge
  · rintro ⟨context, hok⟩
    cases hok

end SurfaceLoom.Core.EvidenceGraph
