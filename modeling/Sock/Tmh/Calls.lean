/-
  What one call does to the ledger, and the ledger's invariant.

  A page is in one of three zones: pinned, hot or warm. The zone, the block and the prefix flag
  make the page's core, which is the same in every layer; with the layer they determine the
  descriptor. So a record that changes a page changes it in every layer.

  * `LedgerInv`: descriptors sit under their own keys, are the policy's page descriptors, and
    agree on their core across layers.
  * `ledgerCall_spec`: a call changes nothing, or records changed pages of one request, or
    forgets one; and what it releases.
-/
import Sock.Tmh.Ledger

namespace Sock.Tmh

open Lib Lib.RefCount PhysicalPageDescriptor

variable {Req Layer : Type}

/-! ## Zones and cores -/

/-- Where a page lies in its request: the first page, the recent window, or between them. -/
inductive Zone where
  | pinned
  | hot
  | warm
  deriving DecidableEq, Repr

/-- The zone of a page, given where the recent window starts. -/
def pageZone (pageIndex recentStartPage : Int) : Zone :=
  if pageIndex = 0 then .pinned else if pageIndex ≥ recentStartPage then .hot else .warm

/-- The zone a role belongs to. -/
def PageRole.zone : PageRole → Zone
  | .pinnedRaw => .pinned
  | .hotRaw => .hot
  | .warmInt8Int4 => .warm
  | .warmInt8Int8 => .warm

/-- What a page's descriptors have in common in all layers. -/
def PhysicalPageDescriptor.core (d : PhysicalPageDescriptor Req Layer) : Int × Bool × Zone :=
  (d.logicalBlockId, d.prefixCached, d.role.zone)

section Pages

variable [DecidableEq Layer]

/-- The warm role the policy gives to a layer. -/
def PolicyConfig.warmRole (c : PolicyConfig Layer) (layer : LayerShape Layer) : PageRole :=
  if c.earlyLayers.contains layer then .warmInt8Int4 else .warmInt8Int8

/-- The role of a zone in a layer. -/
def PolicyConfig.zoneRole (c : PolicyConfig Layer) (layer : LayerShape Layer) : Zone → PageRole
  | .pinned => .pinnedRaw
  | .hot => .hotRaw
  | .warm => c.warmRole layer

theorem physicalRoleForPage_eq (c : PolicyConfig Layer) (layer : LayerShape Layer)
    (pageIndex recentStartPage : Int) :
    physicalRoleForPage layer c.earlyLayers pageIndex recentStartPage =
      c.zoneRole layer (pageZone pageIndex recentStartPage) := by
  unfold physicalRoleForPage pageZone
  split
  · rfl
  · split
    · rfl
    · simp only [PolicyConfig.zoneRole, PolicyConfig.warmRole, List.contains_iff_mem]

@[simp] theorem zone_warmRole (c : PolicyConfig Layer) (layer : LayerShape Layer) :
    (c.warmRole layer).zone = .warm := by
  unfold PolicyConfig.warmRole
  split <;> rfl

@[simp] theorem zone_zoneRole (c : PolicyConfig Layer) (layer : LayerShape Layer) (z : Zone) :
    (c.zoneRole layer z).zone = z := by
  cases z with
  | pinned => rfl
  | hot => rfl
  | warm => exact zone_warmRole c layer

/-- `d` is a descriptor the policy makes: for some layer, and for some start of the recent
    window. -/
def IsPage (c : PolicyConfig Layer) (d : PhysicalPageDescriptor Req Layer) : Prop :=
  0 ≤ d.pageIndex ∧ ∃ layer ∈ c.layers, ∃ recentStartPage,
    d = pageDescriptor c d.requestId recentStartPage d.pageIndex d.logicalBlockId d.prefixCached
      layer

namespace IsPage

variable {c : PolicyConfig Layer} {d d' : PhysicalPageDescriptor Req Layer}

theorem storage (h : IsPage c d) : d.storage = storageKindForRole d.role d.prefixCached := by
  obtain ⟨-, layer, -, r, hd⟩ := h
  rw [hd]
  rfl

theorem layer (h : IsPage c d) :
    ∃ layer ∈ c.layers, layer.layerName = d.layerName ∧ d.role = c.zoneRole layer d.role.zone := by
  obtain ⟨-, layer, hm, r, hd⟩ := h
  refine ⟨layer, hm, ?_, ?_⟩
  · rw [hd]
    rfl
  · have : d.role = c.zoneRole layer (pageZone d.pageIndex r) := by
      rw [← physicalRoleForPage_eq]
      exact congrArg role hd
    rw [this, zone_zoneRole]

theorem mem_layerNames (h : IsPage c d) : d.layerName ∈ c.layerNames := by
  obtain ⟨layer, hm, hn, -⟩ := h.layer
  exact List.mem_map.mpr ⟨layer, hm, hn⟩

/-- The pinned page is page 0. -/
theorem zone_pinned (h : IsPage c d) : d.role = .pinnedRaw ↔ d.pageIndex = 0 := by
  obtain ⟨-, layer, -, r, hd⟩ := h
  have hr : d.role = c.zoneRole layer (pageZone d.pageIndex r) := by
    rw [← physicalRoleForPage_eq]
    exact congrArg role hd
  rw [hr]
  unfold pageZone
  split
  · next h0 => simp [h0, PolicyConfig.zoneRole]
  · next h0 =>
      split
      · simp [h0, PolicyConfig.zoneRole]
      · simp only [h0, PolicyConfig.zoneRole, PolicyConfig.warmRole, iff_false]
        split <;> simp

/-- Key and core determine a page descriptor. -/
theorem eq_of_core (hn : c.layerNames.Nodup) (h : IsPage c d) (h' : IsPage c d')
    (hk : d.key = d'.key) (hc : d.core = d'.core) : d = d' := by
  obtain ⟨-, layer, hm, r, hd⟩ := h
  obtain ⟨-, layer', hm', r', hd'⟩ := h'
  simp only [key, Prod.mk.injEq] at hk
  simp only [core, Prod.mk.injEq] at hc
  have hname : layer.layerName = layer'.layerName := by
    have h1 := congrArg layerName hd
    have h2 := congrArg layerName hd'
    exact h1.symm.trans (hk.2.1.trans h2)
  have hl : layer = layer' := List.inj_on_of_nodup_map hn hm hm' hname
  have hz : pageZone d.pageIndex r = pageZone d'.pageIndex r' := by
    have h1 := congrArg role hd
    have h2 := congrArg role hd'
    simp only [pageDescriptor, physicalRoleForPage_eq] at h1 h2
    rw [h1, h2, zone_zoneRole, zone_zoneRole] at hc
    exact hc.2.2
  rw [hk.2.2] at hz
  rw [hd, hd']
  simp only [pageDescriptor, physicalRoleForPage_eq, hz, hl, hk.1, hk.2.2, hc.1, hc.2.1]

end IsPage

theorem core_pageDescriptor (c : PolicyConfig Layer) (requestId : Req) (r i b : Int)
    (cached : Bool) (layer : LayerShape Layer) :
    (pageDescriptor c requestId r i b cached layer).core = (b, cached, pageZone i r) := by
  simp only [core, pageDescriptor, physicalRoleForPage_eq, zone_zoneRole]

/-! ## The descriptors a record walks through -/

theorem mem_pageDescriptors {c : PolicyConfig Layer} {requestId : Req} {totalPages r : Int}
    {logicalPages : List (Int × Bool)} {d : PhysicalPageDescriptor Req Layer} :
    d ∈ pageDescriptors c requestId totalPages r logicalPages ↔
      ∃ i b cached layer, (logicalPages.take totalPages.toNat)[i]? = some (b, cached) ∧
        layer ∈ c.layers ∧ d = pageDescriptor c requestId r (i : Nat) b cached layer := by
  unfold pageDescriptors
  simp only [List.mem_flatMap, List.mem_map, Prod.exists, List.mem_zipIdx_iff_getElem?]
  constructor
  · rintro ⟨b, cached, i, hi, layer, hl, rfl⟩
    exact ⟨i, b, cached, layer, hi, hl, rfl⟩
  · rintro ⟨i, b, cached, layer, hi, hl, rfl⟩
    exact ⟨b, cached, i, hi, layer, hl, rfl⟩

/-- The walk visits each page of each layer once. -/
theorem pageDescriptors_nodup {c : PolicyConfig Layer} (hn : c.layerNames.Nodup) (requestId : Req)
    (totalPages r : Int) (logicalPages : List (Int × Bool)) :
    ((pageDescriptors c requestId totalPages r logicalPages).map
      key).Nodup := by
  unfold pageDescriptors
  rw [List.map_flatMap, List.nodup_flatMap]
  constructor
  · rintro ⟨⟨b, cached⟩, i⟩ -
    dsimp only
    rw [List.map_map]
    refine List.Nodup.map_on ?_ (List.Nodup.of_map _ hn)
    intro layer hl layer' hl' he
    simp only [Function.comp_apply, key, pageDescriptor,
      Prod.mk.injEq] at he
    exact List.inj_on_of_nodup_map hn hl hl' he.2.1
  · have hidx : ((logicalPages.take totalPages.toNat).zipIdx.map Prod.snd).Nodup := by
      rw [List.zipIdx_map_snd]
      exact List.nodup_range'
    rw [List.nodup_iff_pairwise_ne, List.pairwise_map] at hidx
    refine hidx.imp ?_
    rintro ⟨⟨b, cached⟩, i⟩ ⟨⟨b', cached'⟩, i'⟩ hne
    show List.Disjoint _ _
    rw [List.disjoint_left]
    intro k hk hk'
    simp only [List.mem_map, exists_exists_and_eq_and] at hk hk'
    obtain ⟨layer, -, rfl⟩ := hk
    obtain ⟨layer', -, he⟩ := hk'
    simp only [key, pageDescriptor, Prod.mk.injEq] at he
    apply hne
    have := he.2.2
    dsimp only
    omega

variable [DecidableEq Req]

/-- Over distinct keys, the changed descriptors are those that differ from the ledger. -/
theorem changedDescriptors_eq_filter (ds : List (PhysicalPageDescriptor Req Layer))
    (ledger : Ledger Req Layer) (hn : (ds.map key).Nodup) :
    changedDescriptors ledger ds = ds.filter fun d => decide (ledger.get? d.key ≠ some d) := by
  induction ds generalizing ledger with
  | nil => rfl
  | cons d ds ih =>
      rw [List.map_cons, List.nodup_cons] at hn
      unfold changedDescriptors
      by_cases h : ledger.get? d.key = some d
      · rw [if_pos h, ih ledger hn.2, List.filter_cons_of_neg (by simpa using h)]
      · rw [if_neg h, ih _ hn.2, List.filter_cons_of_pos (by simpa using h)]
        congr 1
        apply List.filter_congr
        intro e he
        have hne : e.key ≠ d.key := by
          intro hk
          exact hn.1 (List.mem_map.mpr ⟨e, he, hk⟩)
        rw [Dict.get?_set, if_neg hne]

section Changes

variable {c : PolicyConfig Layer} (hn : c.layerNames.Nodup) {ledger : Ledger Req Layer}
  {requestId : Req} {totalPages : Int} {logicalPages : List (Int × Bool)}

include hn

theorem recordChanges_eq : recordChanges c ledger requestId totalPages logicalPages =
    (pageDescriptors c requestId totalPages (c.recentStartPage totalPages) logicalPages).filter
      fun d => decide (ledger.get? d.key ≠ some d) :=
  changedDescriptors_eq_filter _ _ (pageDescriptors_nodup hn _ _ _ _)

/-- A record changes the descriptors of its walk that differ from the ledger. -/
theorem mem_recordChanges {d : PhysicalPageDescriptor Req Layer} :
    d ∈ recordChanges c ledger requestId totalPages logicalPages ↔
      d ∈ pageDescriptors c requestId totalPages (c.recentStartPage totalPages) logicalPages ∧
        ledger.get? d.key ≠ some d := by
  rw [recordChanges_eq hn, List.mem_filter, decide_eq_true_eq]

theorem recordChanges_nodup : ((recordChanges c ledger requestId totalPages logicalPages).map
    key).Nodup := by
  rw [recordChanges_eq hn]
  exact (pageDescriptors_nodup hn _ _ _ _).sublist (List.filter_sublist.map _)

end Changes

/-! ## The ledger's invariant -/

/-- Descriptors sit under their own keys, are page descriptors, and agree across layers. -/
structure LedgerInv (c : PolicyConfig Layer) (ledger : Ledger Req Layer) : Prop where
  key : ∀ k d, ledger.get? k = some d → d.key = k
  page : ∀ k d, ledger.get? k = some d → IsPage c d
  uniform : ∀ q l i d, ledger.get? (q, l, i) = some d → ∀ l' ∈ c.layerNames,
    ∃ d', ledger.get? (q, l', i) = some d' ∧ d'.core = d.core

theorem LedgerInv.empty (c : PolicyConfig Layer) :
    LedgerInv c (Dict.empty : Ledger Req Layer) where
  key _ _ h := by cases h
  page _ _ h := by cases h
  uniform _ _ _ _ h := by cases h

/-- What a call releases: canonical descriptors that it removes or replaces by one with another
    key; at least one for every key that dies; none whose key a kept descriptor shares. -/
structure ReleaseSpec (ledger ledger' : Ledger Req Layer)
    (released : List (PhysicalPageDescriptor Req Layer)) : Prop where
  old : ∀ o ∈ released, ledger.get? o.key = some o ∧ o.storage = .canonical ∧
    ∀ v, ledger'.get? o.key = some v → canonicalDescriptorKey v ≠ canonicalDescriptorKey o
  complete : ∀ ck k d, ledger.get? k = some d → canonicalDescriptorKey d = some ck →
    (∀ k' d', ledger'.get? k' = some d' → canonicalDescriptorKey d' ≠ some ck) →
    ∃ o ∈ released, canonicalDescriptorKey o = some ck
  unshared : ∀ o ∈ released, ∀ k v, ledger.get? k = some v → ledger'.get? k = some v →
    canonicalDescriptorKey v ≠ canonicalDescriptorKey o

/-- A record that changes something. The changed pages are changed in every layer. -/
structure RecordSpec (c : PolicyConfig Layer) (ledger ledger' : Ledger Req Layer)
    (event : PhysicalEvent Req Layer) : Prop where
  nonempty : event.descriptors ≠ []
  nodup : (event.descriptors.map key).Nodup
  request : ∀ d ∈ event.descriptors, d.requestId = event.requestId
  page : ∀ d ∈ event.descriptors, IsPage c d
  inside : ∀ d ∈ event.descriptors, d.pageIndex < event.totalPages
  new : ∀ d ∈ event.descriptors, ledger.get? d.key ≠ some d
  put : ∀ d ∈ event.descriptors, ledger'.get? d.key = some d
  keep : ∀ k, k ∉ event.descriptors.map key → ledger'.get? k = ledger.get? k
  layers : ∀ d ∈ event.descriptors, ∀ l ∈ c.layerNames,
    ∃ d' ∈ event.descriptors, d'.layerName = l ∧ d'.pageIndex = d.pageIndex ∧ d'.core = d.core
  noRequests : event.releasedRequestIds = []
  released : ReleaseSpec ledger ledger' event.releasedDescriptors

/-- A forget of a tracked request. -/
structure ForgetSpec (ledger ledger' : Ledger Req Layer) (event : PhysicalEvent Req Layer) :
    Prop where
  descriptors : event.descriptors = []
  requests : event.releasedRequestIds = [event.requestId]
  drop : ∀ k, ledger'.get? k = if k.1 = event.requestId then none else ledger.get? k
  released : ReleaseSpec ledger ledger' event.releasedDescriptors

/-- What a call does to the ledger, with the events it queues. -/
inductive CallSpec (c : PolicyConfig Layer) (ledger : Ledger Req Layer) (call : Call Req) :
    Ledger Req Layer → List (PhysicalEvent Req Layer) → Prop where
  | silent (hidle : ∀ q, call = .forgetRequest q → requestKeys ledger q = []) :
      CallSpec c ledger call ledger []
  | record {ledger' : Ledger Req Layer} {event : PhysicalEvent Req Layer}
      {logicalPages : List (Int × Bool)}
      (hcall : call.recorded c = some (event.totalPages, logicalPages))
      (hq : event.requestId = call.requestId)
      (hchanges : event.descriptors =
        recordChanges c ledger event.requestId event.totalPages logicalPages)
      (h : RecordSpec c ledger ledger' event) :
      CallSpec c ledger call ledger' [event]
  | forget {ledger' : Ledger Req Layer} {event : PhysicalEvent Req Layer}
      (hcall : call = .forgetRequest event.requestId) (h : ForgetSpec ledger ledger' event) :
      CallSpec c ledger call ledger' [event]

/-- The releases of a batch of updates under distinct keys. -/
theorem releaseSpec_of_nodup {c : PolicyConfig Layer} {ledger : Ledger Req Layer}
    (hl : LedgerInv c ledger) (ops : List (LedgerOp Req Layer)) (hn : (ops.map Op.key).Nodup) :
    ReleaseSpec ledger (effects ledger ops) (releases canonicalDescriptorKey ledger ops) where
  old o ho := by
    obtain ⟨op, -, hget, ⟨ck, hck⟩, hv⟩ := releases_tag canonicalDescriptorKey ops ledger hn ho
    rw [hl.key _ _ hget]
    exact ⟨hget, (canonicalDescriptorKey_eq_some.mp hck).1, hv⟩
  complete ck k d hget hck hdead := by
    refine releases_complete canonicalDescriptorKey ops ledger
      ((tagCount_pos canonicalDescriptorKey).mpr ⟨k, d, hget, hck⟩) ?_
    by_contra hne
    obtain ⟨k', d', hget', hck'⟩ :=
      (tagCount_pos canonicalDescriptorKey).mp (Nat.pos_of_ne_zero hne)
    exact hdead k' d' hget' hck'
  unshared o ho k v hk hk' := releases_unshared canonicalDescriptorKey ops ledger hn ho hk hk'

/-- The descriptors of a record that differ from the ledger are a `RecordSpec`. -/
theorem recordSpec {c : PolicyConfig Layer} (hn : c.layerNames.Nodup) {ledger : Ledger Req Layer}
    (hl : LedgerInv c ledger) {call : Call Req} {totalPages : Int}
    {logicalPages : List (Int × Bool)} (hcall : call.recorded c = some (totalPages, logicalPages))
    {event : PhysicalEvent Req Layer} (hq : event.requestId = call.requestId)
    (hd : event.descriptors = recordChanges c ledger call.requestId totalPages logicalPages)
    (hne : event.descriptors ≠ []) (ht : event.totalPages = totalPages)
    (hr : event.releasedRequestIds = [])
    (hrel : event.releasedDescriptors = ledgerReleases c ledger call) :
    RecordSpec c ledger (ledgerCall c ledger call) event := by
  have hmem : ∀ d, d ∈ event.descriptors ↔
      d ∈ pageDescriptors c call.requestId totalPages (c.recentStartPage totalPages) logicalPages ∧
        ledger.get? d.key ≠ some d := by
    intro d
    rw [hd, mem_recordChanges hn]
  have hnodup : (event.descriptors.map key).Nodup :=
    hd ▸ recordChanges_nodup hn
  have hops : ledgerUpdates c ledger call = event.descriptors.map putDescriptor := by
    rw [ledgerUpdates_recorded hcall, hd]
  have hkeys : (ledgerUpdates c ledger call).map Op.key =
      event.descriptors.map key := by
    rw [hops, List.map_map]
    rfl
  have hnodup' : ((ledgerUpdates c ledger call).map Op.key).Nodup := hkeys ▸ hnodup
  refine ⟨hne, hnodup, fun d hm => ?_, fun d hm => ?_, fun d hm => ?_,
    fun d hm => ((hmem d).mp hm).2,
    fun d hm => ?_, fun k hk => ?_, fun d hm l hl' => ?_, hr, ?_⟩
  · obtain ⟨i, b, cached, layer, -, -, rfl⟩ := mem_pageDescriptors.mp ((hmem d).mp hm).1
    exact hq.symm
  · obtain ⟨i, b, cached, layer, -, hlayer, rfl⟩ := mem_pageDescriptors.mp ((hmem d).mp hm).1
    exact ⟨Int.natCast_nonneg i, layer, hlayer, _, rfl⟩
  · obtain ⟨i, b, cached, layer, hi, -, rfl⟩ := mem_pageDescriptors.mp ((hmem d).mp hm).1
    have hlen := (List.getElem?_eq_some_iff.mp hi).1
    rw [List.length_take] at hlen
    rw [ht]
    show (i : Int) < totalPages
    omega
  · have hop : putDescriptor d ∈ ledgerUpdates c ledger call := by
      rw [hops]
      exact List.mem_map_of_mem hm
    have := effects_get?_of_mem _ ledger hnodup' hop
    rw [ledgerCall]
    refine this.trans ?_
    simp [putDescriptor, effect, Op.key]
  · exact effects_get?_of_notMem _ ledger (hkeys ▸ hk)
  · obtain ⟨hw, hdiff⟩ := (hmem d).mp hm
    obtain ⟨i, b, cached, layer, hi, hlayer, rfl⟩ := mem_pageDescriptors.mp hw
    obtain ⟨layer', hlayer', rfl⟩ := List.mem_map.mp hl'
    refine ⟨pageDescriptor c call.requestId (c.recentStartPage totalPages) i b cached layer',
      (hmem _).mpr ⟨mem_pageDescriptors.mpr ⟨i, b, cached, layer', hi, hlayer', rfl⟩, ?_⟩,
      rfl, rfl, by rw [core_pageDescriptor, core_pageDescriptor]⟩
    -- were the page unchanged in the other layer, it would be unchanged in this one
    intro hsame
    obtain ⟨d'', hget, hcore⟩ := hl.uniform _ _ _ _ hsame layer.layerName
      (List.mem_map_of_mem hlayer)
    refine hdiff ?_
    rw [core_pageDescriptor] at hcore
    have hkey : d''.key = (pageDescriptor c call.requestId (c.recentStartPage totalPages) i b cached
        layer).key := hl.key _ _ hget
    have heq := IsPage.eq_of_core hn (hl.page _ _ hget)
      ⟨Int.natCast_nonneg i, layer, hlayer, _, rfl⟩ hkey
      (hcore.trans (core_pageDescriptor c call.requestId _ i b cached layer).symm)
    rw [← heq, hkey]
    exact hget
  · rw [hrel]
    exact releaseSpec_of_nodup hl _ hnodup'

omit [DecidableEq Layer] in
theorem mem_requestKeys {ledger : Ledger Req Layer} {q : Req} {k : Req × Layer × Int} :
    k ∈ requestKeys ledger q ↔ k ∈ ledger.keys ∧ k.1 = q := by
  rw [requestKeys, List.mem_filter, decide_eq_true_eq]

/-- Forgetting a request drops its keys. -/
theorem ledgerCall_forget (c : PolicyConfig Layer) (ledger : Ledger Req Layer) (q : Req)
    (k : Req × Layer × Int) : (ledgerCall c ledger (.forgetRequest q)).get? k =
      if k.1 = q then none else ledger.get? k := by
  have hkeys : ((requestKeys ledger q).map fun k => (.drop k : LedgerOp Req Layer)).map Op.key =
      requestKeys ledger q := by
    rw [List.map_map]
    exact List.map_id _
  have hn : (requestKeys ledger q).Nodup := ledger.nodup.filter _
  unfold ledgerCall ledgerUpdates
  by_cases hk : k ∈ requestKeys ledger q
  · rw [if_pos (mem_requestKeys.mp hk).2]
    have hop : (.drop k : LedgerOp Req Layer) ∈ (requestKeys ledger q).map Op.drop :=
      List.mem_map_of_mem hk
    refine (effects_get?_of_mem _ ledger (hkeys.symm ▸ hn) hop).trans ?_
    simp [effect, Op.key]
  · refine (effects_get?_of_notMem _ ledger (hkeys.symm ▸ hk)).trans ?_
    split
    · next hq =>
        rw [mem_requestKeys] at hk
        exact Dict.get?_eq_none.mpr fun hm => hk ⟨hm, hq⟩
    · rfl

/-- **One call.** It changes nothing, records changed pages, or forgets a request. -/
theorem ledgerCall_spec {c : PolicyConfig Layer} (hc : c.policy = .physical)
    (hn : c.layerNames.Nodup) {ledger : Ledger Req Layer} (hl : LedgerInv c ledger)
    (call : Call Req) :
    CallSpec c ledger call (ledgerCall c ledger call) (ledgerEvents c ledger call) := by
  have hsilent : ledgerUpdates c ledger call = [] → ledgerEvents c ledger call = [] →
      (∀ q, call = .forgetRequest q → requestKeys ledger q = []) →
      CallSpec c ledger call (ledgerCall c ledger call) (ledgerEvents c ledger call) := by
    intro hu he hidle
    rw [ledgerCall, hu, he]
    exact .silent hidle
  cases hrec : call.recorded c with
  | some r =>
      obtain ⟨totalPages, logicalPages⟩ := r
      have hu := ledgerUpdates_recorded hrec ledger
      have he := ledgerEvents_recorded hrec ledger
      dsimp only at he
      by_cases hnil : recordChanges c ledger call.requestId totalPages logicalPages = []
      · rw [hnil] at hu
        rw [if_pos hnil] at he
        refine hsilent hu he fun q hq => ?_
        rw [hq] at hrec
        cases hrec
      · rw [if_neg hnil] at he
        rw [he]
        exact .record hrec rfl rfl (recordSpec hn hl hrec rfl rfl hnil rfl rfl rfl)
  | none =>
      cases call with
      | recordAllocation =>
          exact hsilent (by simp only [ledgerUpdates, hrec]) (by simp only [ledgerEvents, hrec])
            fun _ h => (by cases h)
      | recordBlockIds =>
          exact hsilent (by simp only [ledgerUpdates, hrec]) (by simp only [ledgerEvents, hrec])
            fun _ h => (by cases h)
      | forgetRequest q =>
          by_cases hnil : requestKeys ledger q = []
          · refine hsilent (by simp [ledgerUpdates, hnil]) (by simp [ledgerEvents, hnil])
              fun _ h => ?_
            cases h
            exact hnil
          · have hphys : c.physical = true := by simp [PolicyConfig.physical, hc]
            have hkeys : (ledgerUpdates c ledger (.forgetRequest q)).map Op.key =
                requestKeys ledger q := by
              rw [ledgerUpdates, List.map_map]
              exact List.map_id _
            have hnodup : ((ledgerUpdates c ledger (.forgetRequest q)).map Op.key).Nodup :=
              hkeys ▸ ledger.nodup.filter _
            have he : ledgerEvents c ledger (.forgetRequest q) = [_] := if_pos ⟨hphys, hnil⟩
            rw [he]
            exact .forget rfl ⟨rfl, rfl, ledgerCall_forget c ledger q,
              releaseSpec_of_nodup hl _ hnodup⟩

/-- Every call keeps the ledger's invariant. -/
theorem CallSpec.ledgerInv {c : PolicyConfig Layer} {ledger ledger' : Ledger Req Layer}
    {call : Call Req} {events : List (PhysicalEvent Req Layer)} (hl : LedgerInv c ledger)
    (h : CallSpec c ledger call ledger' events) : LedgerInv c ledger' := by
  cases h with
  | silent => exact hl
  | @record _ event _ hcall hq hchanges h =>
      -- a key of the event carries the event's descriptor, any other key what it carried
      have hcases : ∀ k d, ledger'.get? k = some d →
          (d ∈ event.descriptors ∧ d.key = k) ∨
            (k ∉ event.descriptors.map key ∧ ledger.get? k = some d) := by
        intro k d hget
        by_cases hk : k ∈ event.descriptors.map key
        · obtain ⟨d', hm, rfl⟩ := List.mem_map.mp hk
          rw [h.put d' hm] at hget
          cases hget
          exact .inl ⟨hm, rfl⟩
        · rw [h.keep k hk] at hget
          exact .inr ⟨hk, hget⟩
      refine ⟨fun k d hget => ?_, fun k d hget => ?_, fun q l i d hget l' hl' => ?_⟩
      · rcases hcases k d hget with ⟨-, hk⟩ | ⟨-, hold⟩
        · exact hk
        · exact hl.key k d hold
      · rcases hcases k d hget with ⟨hm, -⟩ | ⟨-, hold⟩
        · exact h.page d hm
        · exact hl.page k d hold
      · rcases hcases _ d hget with ⟨hm, hk⟩ | ⟨hk, hold⟩
        · obtain ⟨d', hm', hlay, hpage, hcore⟩ := h.layers d hm l' hl'
          refine ⟨d', ?_, hcore⟩
          rw [← h.put d' hm']
          simp only [key, Prod.mk.injEq] at hk ⊢
          rw [h.request d' hm', ← h.request d hm, hk.1, hlay, hpage, hk.2.2]
        · obtain ⟨d', hget', hcore⟩ := hl.uniform q l i d hold l' hl'
          refine ⟨d', ?_, hcore⟩
          rw [h.keep _ ?_, hget']
          -- a change in the other layer would come with a change in this one
          intro hk'
          obtain ⟨e, hm, he⟩ := List.mem_map.mp hk'
          have hlmem : l ∈ c.layerNames := by
            have hkd := hl.key _ d hold
            have := (hl.page _ d hold).mem_layerNames
            simp only [key, Prod.mk.injEq] at hkd
            rwa [hkd.2.1] at this
          obtain ⟨e', hm', hlay, hpage, -⟩ := h.layers e hm l hlmem
          refine hk (List.mem_map.mpr ⟨e', hm', ?_⟩)
          simp only [key, Prod.mk.injEq] at he ⊢
          rw [h.request e' hm', ← h.request e hm]
          exact ⟨he.1, hlay, hpage.trans he.2.2⟩
  | forget hcall h =>
      refine ⟨fun k d hget => ?_, fun k d hget => ?_, fun q l i d hget l' hl' => ?_⟩
      · rw [h.drop] at hget
        split at hget
        · cases hget
        · exact hl.key k d hget
      · rw [h.drop] at hget
        split at hget
        · cases hget
        · exact hl.page k d hget
      · simp only [h.drop] at hget ⊢
        split at hget
        · cases hget
        · next hne => simpa [hne] using hl.uniform q l i d hget l' hl'

end Pages

end Sock.Tmh
