import OsintCore.Extraction.Theorems.Loops
import OsintCore.Merge.Theorems.Execute

namespace EntityWorker

variable {w : EntityWorker} {σ τ τ' : Store} {ctx : Context} {e : Edge} {a : EntityId}

-- No row refers to the entity.
structure Unreferenced (σ : Store) (a : EntityId) : Prop where
  relationships : ∀ r ∈ σ.relationships, ¬r.Touches a
  aliases       : ∀ x ∈ σ.entityAliases, x.entityId ≠ a
  identifiers   : ∀ i ∈ σ.entityIdentifiers, i.entityId ≠ a
  extractions   : ∀ x ∈ σ.entityExtractions, x.entityId ≠ a

section Edges

theorem mem_mentionEdges {n : Names} {items : List Extracted}
    (h : e ∈ w.mentionEdges ctx n items) : e.source = ctx.document.id := by
  induction items generalizing n
  case nil => simp [mentionEdges] at h
  case cons item items hi =>
    obtain rfl | h := List.mem_cons.mp h
    · rfl
    · exact hi h

-- The entities which the document has named are those which it mentions.
theorem mem_entityIds {n : Names} {items : List Extracted} {q : NaturalKey × EntityId}
    (h : q ∈ (items.foldl (fun n item => n.after w item.naturalKey) n).entityIds) :
    q ∈ n.entityIds ∨ ∃ e ∈ w.mentionEdges ctx n items, e.target = q.snd := by
  induction items generalizing n
  case nil => exact .inl h
  case cons item items hi =>
    obtain h | ⟨e, he, ht⟩ := hi h
    case inr => exact .inr ⟨e, List.mem_cons_of_mem _ he, ht⟩
    case inl =>
      simp only [Names.after] at h
      split_ifs at h
      case pos => exact .inl h
      case neg =>
        obtain rfl | h := List.mem_cons.mp h
        · exact .inr ⟨_, List.mem_cons_self, rfl⟩
        · exact .inl h

theorem derivedEdge_ends {ids : List (NaturalKey × EntityId)} {item : Extracted}
    (h : derivedEdge ids item = some e) :
    (∃ q ∈ ids, q.snd = e.source) ∧ ∃ q ∈ ids, q.snd = e.target := by
  simp only [derivedEdge, Option.bind_eq_bind, Option.bind_eq_some_iff, Option.pure_def,
    Option.some.injEq] at h
  have ⟨link, _, target, ht, source, hs, he⟩ := h
  subst he
  have hm {k : NaturalKey} {id : EntityId} (hl : ids.lookup k = some id) : (k, id) ∈ ids := by
    have ⟨_, _, hl, _⟩ := List.lookup_eq_some_iff.mp hl
    simp [hl]
  exact ⟨⟨_, hm hs, rfl⟩, ⟨_, hm ht, rfl⟩⟩

-- An edge starts at the document, or its ends are entities which the document mentions.
theorem mem_edgesOf (h : e ∈ w.edgesOf σ ctx) :
    e ∈ w.mentionsOf σ ctx ∧ e.source = ctx.document.id ∨
      (∃ m ∈ w.mentionsOf σ ctx, m.target = e.source) ∧
        ∃ m ∈ w.mentionsOf σ ctx, m.target = e.target := by
  obtain h | h := List.mem_append.mp h
  case inl => exact .inl ⟨h, mem_mentionEdges h⟩
  case inr =>
    obtain ⟨item, _, he⟩ := List.mem_filterMap.mp h
    have mentioned {q : NaturalKey × EntityId}
        (hq : q ∈ (w.namesAfter σ (w.itemsOf ctx.document)).entityIds) :
        ∃ m ∈ w.mentionsOf σ ctx, m.target = q.snd :=
      (mem_entityIds hq).resolve_left (by simp [Names.ofStore])
    obtain ⟨⟨q, hq, hs⟩, ⟨q', hq', ht⟩⟩ := derivedEdge_ends he
    exact .inr ⟨hs ▸ mentioned hq, ht ▸ mentioned hq'⟩

theorem reached_prefix (ctx : Context) {earlier : List Edge} (l : List Edge) :
    w.reached σ ctx earlier l <+: l := by
  induction l generalizing earlier
  case nil => exact List.prefix_refl _
  case cons e l hi =>
    unfold reached
    split_ifs
    · simp
    · simpa using hi

end Edges

-- What the store refers to after the given mentions have been named and the given edges written.
structure References (w : EntityWorker) (ctx : Context) (σ : Store) (named written : List Edge)
    (τ : Store) : Prop where
  aliases     : τ.entityAliases = σ.entityAliases
  identifiers : ∀ i ∈ τ.entityIdentifiers, i ∈ σ.entityIdentifiers ∨ ∃ m ∈ named, m.target = i.entityId
  extractions : ∀ x ∈ τ.entityExtractions, x ∈ σ.entityExtractions ∨ ∃ m ∈ named, m.target = x.entityId
  extracted   : ∀ m ∈ named, ∃ x ∈ τ.entityExtractions, x.entityId = m.target ∧
    x.id = w.extractionId ctx.document.id m.target m.item.extractor m.item.textOffset

theorem References.preserved (hw : Function.Injective w.newV5) {reached : List Edge} :
    Preserved w ctx reached (References w ctx σ) where
  named named written e τ τ' h hn := by
    have ha : τ'.entityAliases = τ.entityAliases := by
      have := congrArg Tables.entityAliases hn.frame
      exact this
    have hx : τ'.entityExtractions = τ.entityExtractions.put (w.extractionOf ctx e.target e.item) := by
      have := congrArg Tables.entityExtractions hn.frame
      exact this
    refine ⟨ha.trans h.aliases, fun i hi => ?_, fun x hm => ?_, fun m hm => ?_⟩
    case refine_1 =>
      obtain hi | hi := hn.identifiers i hi
      · exact (h.identifiers i hi).imp_right fun ⟨m, hm, ht⟩ => ⟨m, by simp [hm], ht⟩
      · exact .inr ⟨e, by simp, hi.symm⟩
    case refine_2 =>
      rw [hx] at hm
      obtain rfl | ⟨hm, _⟩ := Table.mem_put.mp hm
      · exact .inr ⟨e, by simp, rfl⟩
      · exact (h.extractions x hm).imp_right fun ⟨m, hm, ht⟩ => ⟨m, by simp [hm], ht⟩
    case refine_3 =>
      simp only [hx, Table.mem_put]
      by_cases hi : w.extractionId ctx.document.id m.target m.item.extractor m.item.textOffset =
          w.extractionId ctx.document.id e.target e.item.extractor e.item.textOffset
      case pos =>
        have := hw hi
        simp only [V5Name.extraction.injEq] at this
        exact ⟨_, .inl rfl, by simp [extractionOf, this], hi.symm⟩
      case neg =>
        have hm : m ∈ named := by
          rcases List.mem_append.mp hm with hm | hm
          · exact hm
          · exact absurd (by rw [List.mem_singleton.mp hm]) hi
        have ⟨x, hx, ht, hk⟩ := h.extracted m hm
        exact ⟨x, .inr ⟨hx, by simpa [hk, extractionOf] using hi⟩, ht, hk⟩
  written e _ named written r τ τ' h hwr := by
    have ht := hwr.tables
    refine ⟨?_, ?_, ?_, ?_⟩ <;> simp only [ht]
    · exact h.aliases
    · exact h.identifiers
    · exact h.extractions
    · exact h.extracted

theorem References.nil : References w ctx σ [] [] σ :=
  ⟨rfl, fun _ h => .inl h, fun _ h => .inl h, by simp⟩

-- A relationship which the extraction has left or written.
theorem Wrote.relationships {written : List Edge} (h : Wrote w σ τ written) {r : Relationship}
    (hr : r ∈ τ.relationships) :
    r ∈ σ.relationships ∨ ∃ d ∈ written, r.naturalKey = d.naturalKey := by
  have hg : τ.relationships.get? r.id = some r := Table.mem_iff_get?.mp hr
  by_cases hd : ∃ d ∈ written, w.edgeId d = r.id
  case pos =>
    have ⟨d, hd, hi⟩ := hd
    have ⟨d', hd', _, r', hg', hk⟩ := h.edges d hd
    rw [hi, hg] at hg'
    exact .inr ⟨d', hd', Option.some.inj hg' ▸ hk⟩
  case neg =>
    have hd : ∀ d ∈ written, w.edgeId d ≠ r.id := by simpa using hd
    exact .inl <| Table.get?_mem <| h.others r.id hd ▸ hg

theorem edges_head (h : e ∈ (w.edgesOf σ ctx).head?) : e.source = ctx.document.id := by
  unfold edgesOf edges at h
  cases hi : w.itemsOf ctx.document
  case nil => simp [hi, mentionEdges] at h
  case cons =>
    simp only [hi, mentionEdges, List.cons_append, List.head?_cons, Option.mem_some_iff] at h
    exact h ▸ rfl

-- The ends of the edges which are reached, in terms of the mentions which have been named.
structure Ends (ctx : Context) (named reached : List Edge) : Prop where
  subset : named ⊆ reached
  target : ∀ e ∈ reached, ∃ m ∈ named, m.target = e.target
  source : ∀ e ∈ reached, e.source = ctx.document.id ∨ ∃ m ∈ named, m.target = e.source

theorem Ends.of_mentions {reached : List Edge} (hp : reached <+: w.edgesOf σ ctx)
    (hm : w.mentionsOf σ ctx <+: reached) : Ends ctx (w.mentionsOf σ ctx) reached where
  subset := hm.subset
  target e he := by
    obtain ⟨hm, _⟩ | ⟨_, ht⟩ := mem_edgesOf (hp.subset he)
    · exact ⟨e, hm, rfl⟩
    · exact ht
  source e he := (mem_edgesOf (hp.subset he)).imp (·.right) (·.left)

theorem Stage.ends {named written : List Edge} (h : Stage (w.mentionsOf σ ctx) named written e)
    (hp : written ++ [e] <+: w.edgesOf σ ctx) : Ends ctx named (written ++ [e]) := by
  obtain ⟨rfl, hm⟩ | ⟨rfl, hm⟩ := h
  case inl =>
    exact ⟨fun _ h => h, fun e he => ⟨e, he, rfl⟩, fun e he => .inl <| mem_mentionEdges <| hm.subset he⟩
  case inr => exact .of_mentions hp <| hm.trans <| List.prefix_append ..

-- `a` is referred to if it has been named, or if it is the document and some edge has been written.
theorem References.unreferenced_iff {named written : List Edge} (reached : List Edge)
    (hw : Function.Injective w.newV5) (hu : Unreferenced σ a) (h : References w ctx σ named written τ)
    (hwr : Wrote w σ τ written) (he : Ends ctx named reached) (hs : written <+: reached)
    (hp : reached <+: w.edgesOf σ ctx) :
    Unreferenced τ a ↔
      (∀ e ∈ reached, e.target ≠ a) ∧ (ctx.document.id = a → written = []) := by
  constructor
  case mp =>
    intro ht
    refine ⟨fun e hm hea => ?_, fun hd => ?_⟩
    case refine_1 =>
      have ⟨m, hm, hme⟩ := he.target e hm
      have ⟨x, hx, hxm, _⟩ := h.extracted m hm
      exact ht.extractions x hx <| hxm.trans <| hme.trans hea
    case refine_2 =>
      by_contra hne
      obtain ⟨d, l, rfl⟩ := List.exists_cons_of_ne_nil hne
      have hd₀ : d.source = ctx.document.id := edges_head (w := w) (σ := σ) <| by
        have ⟨r, hr⟩ := hs.trans hp
        simp [← hr]
      have ⟨d', _, hi, r, hg, hk⟩ := hwr.edges d (by simp)
      have hi := hw hi
      simp only [V5Name.relationship.injEq] at hi
      have hrs : r.sourceObjectId = d'.source := congrArg Prod.fst hk
      exact ht.relationships r (Table.get?_mem hg) <| .inl <| hrs.trans <| hi.left.trans <| hd₀.trans hd
  case mpr =>
    intro ⟨hr, hd⟩
    have named : ∀ m ∈ named, m.target ≠ a := fun m hm => hr m (he.subset hm)
    refine ⟨fun r hm ht => ?_, h.aliases ▸ hu.aliases, fun i hi ha => ?_, fun x hx ha => ?_⟩
    case refine_1 =>
      obtain hm | ⟨d, hdw, hk⟩ := hwr.relationships hm
      case inl => exact hu.relationships r hm ht
      case inr =>
        have hs : r.sourceObjectId = d.source := congrArg Prod.fst hk
        have ht' : r.targetObjectId = d.target := congrArg (·.snd.snd) hk
        have hdr := ‹written <+: reached›.subset hdw
        obtain ht | ht := ht
        · obtain hsd | ⟨m, hm, hms⟩ := he.source d hdr
          · simp [hd (hsd.symm.trans <| hs.symm.trans ht)] at hdw
          · exact named m hm <| hms.trans <| hs.symm.trans ht
        · exact hr d hdr <| ht'.symm.trans ht
    case refine_2 =>
      obtain hi | ⟨m, hm, ht⟩ := h.identifiers i hi
      · exact hu.identifiers i hi ha
      · exact named m hm <| ht.trans ha
    case refine_3 =>
      obtain hx | ⟨m, hm, ht⟩ := h.extractions x hx
      · exact hu.extractions x hx ha
      · exact named m hm <| ht.trans ha

-- A step which leaves the rows of an entity alone.
theorem Unreferenced.frame (h : τ'.toTables = { τ.toTables with provenance := τ'.provenance }) :
    Unreferenced τ' a ↔ Unreferenced τ a := by
  have hr := congrArg Tables.relationships h
  have ha := congrArg Tables.entityAliases h
  have hi := congrArg Tables.entityIdentifiers h
  have hx := congrArg Tables.entityExtractions h
  simp only at hr ha hi hx
  exact ⟨fun ⟨h₁, h₂, h₃, h₄⟩ => ⟨hr ▸ h₁, ha ▸ h₂, hi ▸ h₃, hx ▸ h₄⟩,
    fun ⟨h₁, h₂, h₃, h₄⟩ => ⟨hr ▸ h₁, ha ▸ h₂, hi ▸ h₃, hx ▸ h₄⟩⟩

-- None of the edges which are reached leads to the entity. (An entity which is the document itself is
-- also the source of the first edge, unless that edge is refused.)
def Spares (w : EntityWorker) (σ : Store) (ctx : Context) (a : EntityId) : Prop :=
  (∀ e ∈ w.reached σ ctx [] (w.edgesOf σ ctx), e.target ≠ a) ∧
    (ctx.document.id = a → ∀ e ∈ (w.edgesOf σ ctx).head?, w.Conflicts σ [] e)

theorem written_nil_iff {written : List Edge} (hp : written <+: w.edgesOf σ ctx)
    (hf : ∀ earlier e, earlier ++ [e] <+: written → ¬w.Conflicts σ earlier e)
    (h : written = [] → ∀ e ∈ (w.edgesOf σ ctx).head?, w.Conflicts σ [] e) :
    written = [] ↔ ∀ e ∈ (w.edgesOf σ ctx).head?, w.Conflicts σ [] e := by
  refine ⟨h, fun hc => ?_⟩
  by_contra hne
  obtain ⟨d, l, rfl⟩ := List.exists_cons_of_ne_nil hne
  have ⟨r, hr⟩ := hp
  exact hf [] d ⟨l, rfl⟩ <| hc d (by simp [← hr])

theorem Ended.unreferenced_iff (hw : Function.Injective w.newV5) (hu : Unreferenced σ a)
    (h : Ended w ctx σ (References w ctx σ) τ') : Unreferenced τ' a ↔ Spares w σ ctx a := by
  cases h
  case finished τ hwr hrf hr ht =>
    rw [Unreferenced.frame ht, hrf.unreferenced_iff (w.edgesOf σ ctx) hw hu hwr
      (.of_mentions (List.prefix_refl _) (List.prefix_append ..)) (List.prefix_refl _)
      (List.prefix_refl _), Spares, hr]
    rw [written_nil_iff (List.prefix_refl _) hwr.free fun h => by simp [h]]
  case stopped h =>
    have ⟨named, written, e, τ, hwr, hrf, hr, hs, hf⟩ := h
    have hp : written ++ [e] <+: w.edgesOf σ ctx := hr ▸ reached_prefix ctx _
    have hwp : written <+: w.edgesOf σ ctx := (List.prefix_append ..).trans hp
    rw [Spares, hr]
    cases hf
    case conflict hc he =>
      rw [he, hrf.unreferenced_iff _ hw hu hwr (hs.ends hp) (List.prefix_append ..) hp]
      rw [written_nil_iff hwp hwr.free]
      rintro rfl
      have ⟨r, hr⟩ := hp
      simpa [← hr] using hwr.conflicts.mp hc
    case missing hm hc r hi hk _ ht =>
      have hc : ¬w.Conflicts σ written e := fun h => hc <| hwr.conflicts.mpr h
      have hwr' : Wrote w σ τ' (written ++ [e]) := hwr.append hc hi hk (by simp [ht]) (by simp [ht])
      have hrf' : References w ctx σ named (written ++ [e]) τ' := by
        refine ⟨?_, ?_, ?_, ?_⟩ <;> simp only [ht]
        exacts [hrf.aliases, hrf.identifiers, hrf.extractions, hrf.extracted]
      rw [hrf'.unreferenced_iff _ hw hu hwr' (hs.ends hp) (List.prefix_refl _) hp]
      rw [written_nil_iff hp hwr'.free (by simp)]

-- `a` has been merged into `s`, and the merge has repointed what referred to it.
structure MergedAway (σ : Store) (a s : EntityId) : Prop where
  merged       : Merge.MergedInto σ a s
  unreferenced : Unreferenced σ a

-- This is how a merge leaves the store.
theorem MergedAway.of_executed {survivor merged : Entity} {mctx : Merge.Context} {h : MergeHistory}
    (he : Merge.Executed σ τ survivor merged mctx h) (hne : merged.id ≠ survivor.id) :
    MergedAway τ merged.id survivor.id where
  merged := by simp [he.mergedInto]
  unreferenced := by
    refine ⟨fun r hr => ?_, fun x hx => ?_, fun i hi => ?_, fun x hx => ?_⟩
    case refine_1 =>
      have hg := Table.mem_iff_get?.mp hr
      rw [he.relationships] at hg
      have ⟨r₀, _, hg⟩ := Option.bind_eq_some_iff.mp hg
      unfold Merge.mergedRelationship at hg
      split at hg
      case h_1 hf => exact Option.some.inj hg ▸ (Merge.fate_eq_kept.mp hf).left
      case h_4 => exact Option.some.inj hg ▸ Merge.repointedRow_not_touches hne
      case h_5 hf =>
        have ht := (Merge.fate_eq_absorbs σ.relationship_natural |>.mp hf).left
        exact Option.some.inj hg ▸ ht
      all_goals simp at hg
    case refine_2 =>
      have ⟨x₀, _, hg⟩ := Option.map_eq_some_iff.mp <| he.aliases _ ▸ Table.mem_iff_get?.mp hx
      rw [← hg]
      split_ifs with h
      · exact hne.symm
      · exact h
    case refine_3 =>
      have ⟨i₀, _, hg⟩ := Option.map_eq_some_iff.mp <| he.identifiers _ ▸ Table.mem_iff_get?.mp hi
      rw [← hg]
      split_ifs with h
      · exact hne.symm
      · exact h
    case refine_4 =>
      have ⟨x₀, _, hg⟩ := Option.map_eq_some_iff.mp <| he.extractions _ ▸ Table.mem_iff_get?.mp hx
      rw [← hg]
      split_ifs with h
      · exact hne.symm
      · exact h

-- An extraction leaves a merged entity unreferenced if and only if it does not get as far as naming it.
theorem extractDocument_unreferenced {s : EntityId} {documentId : DocumentId} {now : Timestamp}
    {claimId : ProvenanceId} (hw : Function.Injective w.newV5) (h : MergedAway σ a s) :
    Unreferenced ((w.extractDocument documentId now claimId).exec σ) a ↔
      (¬Skipped σ documentId → ∀ document, σ.getDocument documentId = some document →
        Spares w σ (w.contextOf σ document now) a) := by
  obtain ⟨hs, he⟩ | ⟨hs, document, hd, he⟩ := extractDocument_exec (w := w) (σ := σ)
    documentId now claimId
  case inl =>
    rw [he]
    exact iff_of_true h.unreferenced fun hn => absurd hs hn
  case inr =>
    rw [he, (extract_ended _ (References.preserved hw) .nil).unreferenced_iff hw h.unreferenced]
    simp [hs, hd]

-- A worker whose extractors look at the author of a document only.
def authorWorker : EntityWorker where
  bounds           := { maxExtractions := 500, maxScanBytes := 262144 }
  extractAll input _ := {
    items := input.author.toList.map fun author => {
      entityType     := .person
      name           := author
      normalizedName := author
      extractor      := "field-author"
      confidence     := 3 / 5
      textOffset     := none
      excerpt        := some author
      attributes     := [("source_field", .string "document.author")]
      derivedFrom    := none }
    truncated       := false
    totalCandidates := input.author.toList.length }
  newV5            := Sample.newV5
  parseUuid _      := none
  processorVersion := "0.1.0"

def authoredDocument (id : DocumentId) (author : String) : Document where
  id                    := id
  objectType            := .article
  schemaVersion         := "1"
  title                 := none
  body                  := none
  summary               := none
  language              := none
  author                := some author
  publishedAt           := none
  modifiedAt            := none
  observedAt            := 0
  collectedAt           := 0
  sourceUrl             := none
  canonicalUrl          := none
  normalizedContentHash := none
  confidence            := 1
  labels                := []
  attributes            := .object []
  externalKey           := none
  simhash               := none
  duplicateOf           := none

-- The entity `2` has been merged into `1`; the document names `2` as its author.
def mergedAuthorSample : Store := .mk
  { entities  := ⟨[Sample.person 1 "ann", { Sample.person 2 "bob" with mergedInto := some 1 }],
      by decide⟩
    documents := ⟨[authoredDocument 5 "bob"], by decide⟩ }

theorem mergedAuthorSample_mergedAway : MergedAway mergedAuthorSample 2 1 where
  merged       := ⟨_, rfl, rfl⟩
  unreferenced := ⟨by decide, by decide, by decide, by decide⟩

theorem extractDocument_unreferenced_mergedAuthorSample :
    Unreferenced ((authorWorker.extractDocument 5 7 41).exec mergedAuthorSample) 2 ↔
      (¬Skipped mergedAuthorSample 5 → ∀ document, mergedAuthorSample.getDocument 5 = some document →
        Spares authorWorker mergedAuthorSample
          (authorWorker.contextOf mergedAuthorSample document 7) 2) :=
  extractDocument_unreferenced Sample.newV5_injective mergedAuthorSample_mergedAway

theorem not_extractDocument_unreferenced : ¬∀ (w : EntityWorker) (σ : Store) (a s : EntityId)
    (documentId : DocumentId) (now : Timestamp) (claimId : ProvenanceId),
    Function.Injective w.newV5 → MergedAway σ a s →
      Unreferenced ((w.extractDocument documentId now claimId).exec σ) a := by
  intro h
  have hu := h authorWorker mergedAuthorSample 2 1 5 7 41 Sample.newV5_injective
    mergedAuthorSample_mergedAway
  have hx : ∃ x ∈ ((authorWorker.extractDocument 5 7 41).exec mergedAuthorSample).entityExtractions.rows,
      x.entityId = 2 := by decide
  have ⟨x, hm, hx⟩ := hx
  exact hu.extractions x hm hx

end EntityWorker
