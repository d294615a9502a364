import OsintCore.Stix.Theorems.ImportAgain
import OsintCore.Stix.Theorems.ImportOrder
import OsintCore.Stix.Theorems.Mapping
import OsintCore.Stix.Theorems.Validate

namespace Stix.StixWorker

variable {w : StixWorker} {ctx : ImportContext} {σ : Store} {bundle : StixBundle}

section Run

variable {db : Store} {blobOf : RawEvidenceId → Option Json} {id : RawEvidenceId} {now : Timestamp}
variable {claimId : Nat → ProvenanceId} {report : ImportReport} {evidence : RawEvidence}

theorem runImport_missing (hg : db.getRawEvidence id = none) :
    w.runImport db blobOf id now claimId = .error (.evidenceNotFound id) := by
  rw [runImport, hg]

theorem runImport_eq (now : Timestamp) (claimId : Nat → ProvenanceId)
    (hg : db.getRawEvidence id = some evidence)
    (hb : (blobOf id).bind (StixBundle.decode w.time) = some bundle) :
    (w.runImport db blobOf id now claimId).map Prod.snd =
      (w.importBundle ⟨evidence.sourceId, id, now, claimId⟩ db bundle).map (·.db) := by
  obtain ⟨blob, hb, hd⟩ := Option.bind_eq_some_iff.mp hb
  rw [runImport, hg, hb]
  simp only [hd, importBundle]
  cases w.planBundle bundle
  case error => rfl
  case ok planned =>
    change Except.map _ (w.importPlanned _ db planned >>= _) =
      Except.map _ (w.importPlanned _ db planned)
    cases w.importPlanned ⟨evidence.sourceId, id, now, claimId⟩ db planned <;> rfl

theorem runImport_ok (h : w.runImport db blobOf id now claimId = .ok (report, σ)) :
    ∃ evidence bundle tx, db.getRawEvidence id = some evidence ∧
      (blobOf id).bind (StixBundle.decode w.time) = some bundle ∧
      w.importBundle ⟨evidence.sourceId, id, now, claimId⟩ db bundle = .ok tx ∧ tx.db = σ := by
  cases hg : db.getRawEvidence id
  case none => cases (runImport_missing hg).symm.trans h
  case some evidence =>
    cases hb : (blobOf id).bind (StixBundle.decode w.time)
    case none =>
      rw [runImport, hg] at h
      cases hblob : blobOf id
      case none      => simp [hblob] at h
      case some blob => rw [hblob, Option.bind_some] at hb; simp [hblob, hb] at h
    case some bundle =>
      have he := runImport_eq now claimId hg hb
      rw [h] at he
      obtain ⟨tx, ht, hσ⟩ := Except.map_eq_ok.mp he.symm
      exact ⟨evidence, bundle, tx, rfl, rfl, ht, hσ⟩

theorem exists_runImport (hg : db.getRawEvidence id = some evidence)
    (hb : (blobOf id).bind (StixBundle.decode w.time) = some bundle) {tx : ImportTx}
    (h : w.importBundle ⟨evidence.sourceId, id, now, claimId⟩ db bundle = .ok tx) :
    ∃ report, w.runImport db blobOf id now claimId = .ok (report, tx.db) := by
  have he := runImport_eq now claimId hg hb
  rw [h] at he
  obtain ⟨⟨report, σ⟩, hr, hσ⟩ := Except.map_eq_ok.mp he
  have hσ : σ = tx.db := hσ
  exact ⟨report, hσ ▸ hr⟩

theorem runImport_eq_error (hg : db.getRawEvidence id = some evidence)
    (hb : (blobOf id).bind (StixBundle.decode w.time) = some bundle) {e : ImportError} :
    w.runImport db blobOf id now claimId = .error e ↔
      w.importBundle ⟨evidence.sourceId, id, now, claimId⟩ db bundle = .error e := by
  have he := runImport_eq now claimId hg hb
  cases hr : w.runImport db blobOf id now claimId <;>
    cases hi : w.importBundle ⟨evidence.sourceId, id, now, claimId⟩ db bundle <;>
    simp_all [Except.map]

end Run

theorem exists_importBundle (ctx : ImportContext) (hw : Function.Injective w.newV5)
    (hd : w.Derived σ) (he : (σ.rawEvidence.get? ctx.rawEvidenceId).isSome)
    (hu : (w.mappedOf bundle).length ≤ w.maxObjectsPerTx) (hr : σ.relationships = ∅) :
    ∃ tx, w.importBundle ctx σ bundle = .ok tx := by
  cases hx : w.importBundle ctx σ bundle
  case ok tx => exact ⟨tx, rfl⟩
  case error e =>
    obtain ⟨hn, _⟩ | ⟨_, ⟨k, _, r, hm, _⟩, _⟩ := (importBundle_eq_error hw hd he).mp hx
    · have hl : (w.uniqueIds bundle).length ≤ (w.mappedOf bundle).length :=
        (List.dedup_sublist _).length_le.trans (List.length_map _).le
      exact absurd (hn.trans_le hl) (not_lt.mpr hu)
    · rw [hr] at hm
      cases hm

-- The worker and a store in which there is nothing but the evidence

def worker : StixWorker where
  lib              := asciiNames
  time             := .epoch
  newV5            := Sample.newV5
  maxObjectsPerTx  := 100
  processorVersion := "1"

def noted : Store := .mk
  { rawEvidence := (∅ : Table _).put ⟨7, 3⟩ }

theorem noted_derived : worker.Derived noted where
  entities      := by simp [noted]
  identifiers   := by simp [noted]
  relationships := by simp [noted]

theorem getRawEvidence_noted : noted.getRawEvidence 7 = some ⟨7, 3⟩ := by
  decide

-- What has been read of the objects
theorem decode_bundleOf (objects : List Json)
    (hv : validateBundle (fun _ => "") (bundleOf objects) 100 = .ok ())
    (h : (objects.mapM (StixObject.decode .epoch)).isSome) :
    ∃ bundle, StixBundle.decode .epoch (bundleOf objects) = some bundle ∧
      objects.mapM (StixObject.decode .epoch) = some bundle.objects := by
  obtain ⟨items, ha⟩ := validateBundle_ok hv
  obtain rfl : objects = items := by
    simpa [bundleOf, Json.get, Json.asObject, List.lookup] using ha.objects
  obtain ⟨id, hd⟩ := decode_bundle .epoch ha
  obtain ⟨l, hl⟩ := Option.isSome_iff_exists.mp h
  rw [hl, Option.map_some] at hd
  exact ⟨_, hd, hl⟩

theorem exists_runImport_bundleOf {objects : List Json} {bundle : StixBundle}
    (hb : StixBundle.decode .epoch (bundleOf objects) = some bundle)
    (hl : bundle.objects.length ≤ 100) : ∃ report tx,
    worker.importBundle ⟨3, 7, 0, id⟩ noted bundle = .ok tx ∧
      worker.runImport noted (fun _ => some (bundleOf objects)) 7 0 id = .ok (report, tx.db) := by
  have he : (noted.rawEvidence.get? 7).isSome := Option.isSome_of_mem getRawEvidence_noted
  have hm : (worker.mappedOf bundle).length ≤ worker.maxObjectsPerTx :=
    (List.length_filterMap_le _ _).trans hl
  obtain ⟨tx, ht⟩ :=
    exists_importBundle ⟨3, 7, 0, id⟩ Sample.newV5_injective noted_derived he hm rfl
  have hb : (some (bundleOf objects)).bind (StixBundle.decode worker.time) = some bundle := hb
  have hr : ∃ report, worker.runImport noted (fun _ => some (bundleOf objects)) 7 0 id =
      .ok (report, tx.db) := exists_runImport getRawEvidence_noted hb ht
  exact ⟨hr.choose, tx, ht, hr.choose_spec⟩

def person (id name : String) : Json :=
  .object [
    ("type", .string "identity"), ("id", .string id), ("name", .string name),
    ("identity_class", .string "individual")]

def upper : Json :=
  person "identity--00000000-0000-0000-0000-000000000002" "Alice"

def lower : Json :=
  person "identity--00000000-0000-0000-0000-000000000003" "alice"

def uses : Json :=
  .object [
    ("type", .string "relationship"),
    ("id", .string "relationship--00000000-0000-0000-0000-000000000001"),
    ("relationship_type", .string "uses"),
    ("source_ref", .string "identity--00000000-0000-0000-0000-000000000003"),
    ("target_ref", .string "malware--00000000-0000-0000-0000-000000000002")]

instance {bundle : StixBundle} : Decidable (w.ClearRefs bundle) :=
  inferInstanceAs (Decidable (∀ rel ∈ relationshipsOf bundle,
    (∀ a ∈ w.mappedOf bundle, ∀ b ∈ w.mappedOf bundle, a.stixId = rel.sourceRef →
      b.stixId = rel.sourceRef → a.naturalKey = b.naturalKey) ∧
    ∀ a ∈ w.mappedOf bundle, ∀ b ∈ w.mappedOf bundle, a.stixId = rel.targetRef →
      b.stixId = rel.targetRef → a.naturalKey = b.naturalKey))

-- The first name counts.
theorem name_imported {m : MappedEntity} {l : List MappedEntity} {tx : ImportTx}
    (hm : worker.mappedOf bundle = m :: l) (hk : ∀ a ∈ l, a.naturalKey = m.naturalKey)
    (h : worker.importBundle ⟨3, 7, 0, id⟩ noted bundle = .ok tx) :
    (tx.db.findEntityByNormalizedName m.entityType m.normalizedName).map (·.name) =
      some m.name := by
  have he : (noted.rawEvidence.get? 7).isSome := Option.isSome_of_mem getRawEvidence_noted
  have ho := importBundle_outcome ⟨3, 7, 0, id⟩ Sample.newV5_injective noted_derived he bundle
  rw [h] at ho
  cases ho
  case ok _ _ hc _ _ =>
    have hent : tx.db.entities = (worker.imported ⟨3, 7, 0, id⟩ noted bundle).entities :=
      (congrArg Catalogue.entities hc :)
    have hf : (m :: l).filter (·.naturalKey = m.naturalKey) = m :: l := by
      simpa using hk
    rw [Store.findEntityByNormalizedName_eq_owner, hent, imported,
      owner_foldl Sample.newV5_injective noted_derived.wellNamed, hm]
    rw [show (m.entityType, m.normalizedName) = m.naturalKey from rfl, hf, foldl_upserted hk]
    rfl

def namesOf (objects : List Json) : Option (List (String × NaturalKey)) :=
  (objects.mapM (StixObject.decode .epoch)).map fun l =>
    (l.filterMap (stixObjectToEntity asciiNames)).map fun m => (m.name, m.naturalKey)

theorem runImport_namesOf {a b : Json} {name name' : String}
    (hv : validateBundle (fun _ => "") (bundleOf [a, b]) 100 = .ok ())
    (hn : namesOf [a, b] = some [(name, .person, "alice"), (name', .person, "alice")]) :
    ∃ bundle report σ, StixBundle.decode .epoch (bundleOf [a, b]) = some bundle ∧
      [a, b].mapM (StixObject.decode .epoch) = some bundle.objects ∧
      worker.runImport noted (fun _ => some (bundleOf [a, b])) 7 0 id = .ok (report, σ) ∧
      (σ.findEntityByNormalizedName .person "alice").map (·.name) = some name := by
  obtain ⟨l, hl, hn⟩ := Option.map_eq_some_iff.mp hn
  obtain ⟨bundle, hb, ho⟩ := decode_bundleOf [a, b] hv (Option.isSome_of_mem hl)
  cases hl.symm.trans ho
  have hm : (worker.mappedOf bundle).map (fun m => (m.name, m.naturalKey)) =
      [(name, .person, "alice"), (name', .person, "alice")] := hn
  obtain ⟨m, ms, hm, hmn, hms⟩ := List.map_eq_cons_iff.mp hm
  obtain ⟨hname, hkey⟩ := Prod.ext_iff.mp hmn
  have hk (x) (hx : x ∈ ms) : x.naturalKey = m.naturalKey := by
    have hx := List.mem_map_of_mem (f := fun m => (m.name, m.naturalKey)) hx
    rw [hms, List.mem_singleton] at hx
    exact (congrArg Prod.snd hx).trans hkey.symm
  have hlen : bundle.objects.length = 2 := (Option.mapM_eq_some.mp ho).length_eq.symm
  obtain ⟨report, tx, ht, hr⟩ := exists_runImport_bundleOf hb (by omega)
  have hfirst := name_imported hm hk ht
  obtain ⟨htype, hnorm⟩ := Prod.ext_iff.mp hkey
  rw [show m.entityType = .person from htype, show m.normalizedName = "alice" from hnorm,
    show m.name = name from hname] at hfirst
  exact ⟨bundle, report, tx.db, hb, ho, hr, hfirst⟩

end Stix.StixWorker
