/-
  Requests and their block hashes (v1/request.py, v1/core/kv_cache_utils.py).

  A request hashes its tokens block by block; the hash of a block covers the hash of the block
  before it, the block's tokens and its extra keys (adapter, multi-modal items, salt, prompt
  embeddings). Hashes are appended when tokens are: the prompt is hashed in one call, later calls
  go on from the last hash.

  * `blockHashes_appended`: appending tokens in any chunks gives the hashes of a request that is
    made with all tokens, when every multi-modal item but the last ends before the blocks that
    later calls hash.
  * `hash_binds_iff`: without a collision, an equal hash says that the requests agree on tokens,
    items, embeddings, adapter and salt up to there, but for one exchange in the first block.

  The hash function and SHA-256 are parameters. A multi-modal index is an `Int`; `-1` stands for
  the last item.

  Not modelled: the cache of the embedding hashes; a request without a hasher (no block hashes);
  the assertion on negative indices other than `-1`.
-/
import Mathlib.Data.List.Chain
import Sock.Lib.HashChain

namespace Sock.Kv

open Lib.HashChain

abbrev Bytes := List UInt8

abbrev BlockHash := Bytes

/-! ## Requests -/

/-- A multi-modal item and its place in the prompt. -/
structure MultiModalFeature where
  identifier : String
  offset : Nat
  length : Nat
  deriving DecidableEq

structure LoRARequest where
  loraName : String
  deriving DecidableEq

/-- The fields of a `Request` that its hashes depend on. A prompt embedding is its rows, each as the
    bytes of its data. -/
structure Request where
  allTokenIds : List Nat
  numPromptTokens : Nat
  mmFeatures : List MultiModalFeature
  loraRequest : Option LoRARequest
  cacheSalt : Option String
  promptEmbeds : Option (List Bytes)
  blockHashes : List BlockHash

namespace Request

/-- `num_tokens`. -/
def numTokens (r : Request) : Nat := r.allTokenIds.length

/-- `xs[start:stop]`. -/
def slice {α : Type} (xs : List α) (start stop : Nat) : List α :=
  (xs.drop start).take (stop - start)

end Request

open Request

/-! ## Extra keys -/

/-- An entry of the extra keys: a text, an item with its offset in the block, or bytes. -/
inductive ExtraKey where
  | text (s : String)
  | item (identifier : String) (offset : Int)
  | bytes (b : Bytes)
  deriving DecidableEq

/-- What a block hash covers: the parent hash, the tokens and the extra keys. -/
structure HashInput where
  parent : BlockHash
  tokens : List Nat
  extraKeys : Option (List ExtraKey)
  deriving DecidableEq

/-- The hash functions, and `NONE_HASH`. Digests are not empty. -/
structure Hashing where
  hashFunction : HashInput → BlockHash
  sha256 : Bytes → Bytes
  noneHash : BlockHash
  hash_ne_nil : ∀ x, hashFunction x ≠ []

/-- The loop of `_gen_mm_extra_hash_keys`: the keys, and the number of items it passes. -/
def mmLoop (start stop : Nat) : List MultiModalFeature → List ExtraKey × Nat
  | [] => ([], 0)
  | f :: fs =>
      if stop > f.offset then
        if start ≥ f.offset + f.length then
          let (keys, passed) := mmLoop start stop fs
          (keys, passed + 1)
        else
          let key := .item f.identifier ((f.offset : Int) - start)
          if stop ≥ f.offset + f.length then
            let (keys, passed) := mmLoop start stop fs
            (key :: keys, passed + 1)
          else ([key], 0)
      else ([], 0)

/-- The position of an index, counted from the end when it is negative. -/
def mmPosition (features : List MultiModalFeature) (index : Int) : Nat :=
  (if index < 0 then features.length + index else index).toNat

/-- `_gen_mm_extra_hash_keys`. -/
def genMmExtraHashKeys (features : List MultiModalFeature) (start stop : Nat) (index : Int) :
    List ExtraKey × Int :=
  match features.getLast? with
  | none => ([], index)
  | some last =>
      if last.offset + last.length ≤ start then ([], index)
      else
        let position := mmPosition features index
        let (keys, passed) := mmLoop start stop (features.drop position)
        (keys, position + passed)

/-- `_gen_lora_extra_hash_keys`. -/
def genLoraExtraHashKeys (r : Request) : List ExtraKey :=
  (r.loraRequest.map fun l => ExtraKey.text l.loraName).toList

/-- The salt keys of `generate_block_hash_extra_keys`: an empty salt is none. -/
def cacheSaltKeys (r : Request) (start : Nat) : List ExtraKey :=
  match r.cacheSalt with
  | some salt => if start = 0 ∧ salt ≠ "" then [.text salt] else []
  | none => []

variable (H : Hashing)

/-- `_gen_prompt_embeds_extra_hash_keys`. -/
def genPromptEmbedsExtraHashKeys (r : Request) (start stop : Nat) : List ExtraKey :=
  match r.promptEmbeds with
  | none => []
  | some rows => [.bytes (H.sha256 (slice rows start stop).flatten)]

/-- `generate_block_hash_extra_keys`. -/
def generateBlockHashExtraKeys (r : Request) (start stop : Nat) (index : Int) :
    Option (List ExtraKey) × Int :=
  let (mmExtraKeys, newIndex) := genMmExtraHashKeys r.mmFeatures start stop index
  let extraKeys := genLoraExtraHashKeys r ++ mmExtraKeys ++ cacheSaltKeys r start ++
    genPromptEmbedsExtraHashKeys H r start stop
  (if extraKeys = [] then none else some extraKeys, newIndex)

/-! ## Hashes -/

/-- The digest a parent stands for: no parent, and an empty one, is `NONE_HASH`. -/
def parentDigest : Option BlockHash → BlockHash
  | none => H.noneHash
  | some p => if p = [] then H.noneHash else p

/-- `hash_block_tokens`. -/
def hashBlockTokens (parent : Option BlockHash) (tokens : List Nat)
    (extraKeys : Option (List ExtraKey)) : BlockHash :=
  H.hashFunction ⟨parentDigest H parent, tokens, extraKeys⟩

/-- The loop of `request_block_hasher`, for at most `fuel` blocks. -/
def hashLoop (hashBlockSize : Nat) (r : Request) :
    Nat → Nat → Int → Option BlockHash → List BlockHash
  | 0, _, _, _ => []
  | fuel + 1, start, index, prev =>
      let stop := start + hashBlockSize
      if stop > r.numTokens then []
      else
        let (extraKeys, index) := generateBlockHashExtraKeys H r start stop index
        let blockHash := hashBlockTokens H prev (slice r.allTokenIds start stop) extraKeys
        blockHash :: hashLoop hashBlockSize r fuel stop index (some blockHash)

/-- `request_block_hasher`: the hashes of the full blocks that have none yet. Every round of the
    loop takes at least one token. -/
def requestBlockHasher (hashBlockSize : Nat) (r : Request) : List BlockHash :=
  let start := r.blockHashes.length * hashBlockSize
  if start + hashBlockSize > r.numTokens then []
  else
    hashLoop H hashBlockSize r r.numTokens start (if start > 0 then -1 else 0)
      r.blockHashes.getLast?

namespace Request

/-- `update_block_hashes`. -/
def updateBlockHashes (hashBlockSize : Nat) (r : Request) : Request :=
  { r with blockHashes := r.blockHashes ++ requestBlockHasher H hashBlockSize r }

/-- `append_output_token_ids`. -/
def appendOutputTokenIds (hashBlockSize : Nat) (r : Request) (tokenIds : List Nat) :
    Request :=
  updateBlockHashes H hashBlockSize { r with allTokenIds := r.allTokenIds ++ tokenIds }

/-- `__init__`: the prompt, hashed. -/
def create (hashBlockSize : Nat) (r : Request) (prompt : List Nat) : Request :=
  updateBlockHashes H hashBlockSize
    { r with allTokenIds := prompt, numPromptTokens := prompt.length, blockHashes := [] }

end Request

/-! ## Items of a block -/

/-- The item reaches into the tokens from `start` to `stop`. -/
def MultiModalFeature.Overlaps (f : MultiModalFeature) (start stop : Nat) : Prop :=
  f.offset < stop ∧ start < f.offset + f.length

instance (f : MultiModalFeature) (start stop : Nat) : Decidable (f.Overlaps start stop) :=
  inferInstanceAs (Decidable (_ ∧ _))

/-- The keys of the items that reach into the tokens from `start` to `stop`. -/
def mmKeys (features : List MultiModalFeature) (start stop : Nat) : List ExtraKey :=
  (features.filter fun f => decide (f.Overlaps start stop)).map fun f =>
    .item f.identifier ((f.offset : Int) - start)

/-- The items stand in the order of their places, which do not overlap. -/
def Placed (features : List MultiModalFeature) : Prop :=
  features.Pairwise fun f g => f.offset + f.length ≤ g.offset

instance (features : List MultiModalFeature) : Decidable (Placed features) :=
  inferInstanceAs (Decidable (List.Pairwise _ _))

/-- Every item before the index ends by `start`. -/
def Passed (features : List MultiModalFeature) (index : Int) (start : Nat) : Prop :=
  ∀ f ∈ features.take (mmPosition features index), f.offset + f.length ≤ start

section Items

variable {features fs : List MultiModalFeature} {start stop : Nat} {index : Int}

theorem mmKeys_eq_nil (h : ∀ f ∈ fs, ¬ f.Overlaps start stop) : mmKeys fs start stop = [] := by
  unfold mmKeys
  rw [List.filter_eq_nil_iff.mpr (by simpa using h)]
  rfl

theorem mmKeys_append (fs gs : List MultiModalFeature) :
    mmKeys (fs ++ gs) start stop = mmKeys fs start stop ++ mmKeys gs start stop := by
  simp [mmKeys]

theorem mmLoop_keys (h : Placed fs) : (mmLoop start stop fs).1 = mmKeys fs start stop := by
  induction fs with
  | nil => rfl
  | cons f fs ih =>
      obtain ⟨hf, hfs⟩ := List.pairwise_cons.mp h
      have hcons : mmKeys (f :: fs) start stop = mmKeys [f] start stop ++ mmKeys fs start stop :=
        mmKeys_append [f] fs
      -- items behind one that starts or ends behind the block are behind it too
      have hbehind : stop ≤ f.offset + f.length → mmKeys fs start stop = [] := by
        intro hle
        refine mmKeys_eq_nil fun g hg ho => ?_
        have := hf g hg
        have := ho.1
        omega
      rw [hcons, mmLoop]
      by_cases hstop : stop > f.offset
      · rw [if_pos hstop]
        by_cases hstart : start ≥ f.offset + f.length
        · have hnil : mmKeys [f] start stop = [] := mmKeys_eq_nil fun g hg ho => by
            rw [List.mem_singleton.mp hg] at ho
            have := ho.2
            omega
          rw [if_pos hstart, hnil]
          exact ih hfs
        · have hkey : mmKeys [f] start stop =
              [.item f.identifier ((f.offset : Int) - start)] := by
            have ho : f.Overlaps start stop := ⟨hstop, by omega⟩
            simp [mmKeys, ho]
          rw [if_neg hstart, hkey]
          by_cases hend : stop ≥ f.offset + f.length
          · rw [if_pos hend]
            exact congrArg (_ :: ·) (ih hfs)
          · rw [if_neg hend, hbehind (by omega)]
            rfl
      · have hnil : mmKeys [f] start stop = [] := mmKeys_eq_nil fun g hg ho => by
          rw [List.mem_singleton.mp hg] at ho
          exact hstop ho.1
        rw [if_neg hstop, hnil, hbehind (by omega)]
        rfl

theorem mmLoop_passed (hle : start ≤ stop) :
    ∀ f ∈ fs.take (mmLoop start stop fs).2, f.offset + f.length ≤ stop := by
  induction fs with
  | nil => simp
  | cons g fs ih =>
      rw [mmLoop]
      by_cases hstop : stop > g.offset
      · rw [if_pos hstop]
        by_cases hstart : start ≥ g.offset + g.length
        · rw [if_pos hstart]
          intro f hf
          rcases List.mem_cons.mp hf with rfl | hf
          · omega
          · exact ih f hf
        · rw [if_neg hstart]
          by_cases hend : stop ≥ g.offset + g.length
          · rw [if_pos hend]
            intro f hf
            rcases List.mem_cons.mp hf with rfl | hf
            · exact hend
            · exact ih f hf
          · rw [if_neg hend]
            simp
      · rw [if_neg hstop]
        simp

theorem Passed.mono (h : Passed features index start) (hle : start ≤ stop) :
    Passed features index stop := fun f hf => (h f hf).trans hle

@[simp] theorem mmPosition_natCast (features : List MultiModalFeature) (n : Nat) :
    mmPosition features n = n := by
  unfold mmPosition
  rw [if_neg (by omega), Int.toNat_natCast]

/-- Behind the end of the last item there is none. -/
theorem mmKeys_eq_nil_of_last (hp : Placed features) {last : MultiModalFeature}
    (hlast : features.getLast? = some last) (hend : last.offset + last.length ≤ start) :
    mmKeys features start stop = [] := by
  obtain ⟨init, rfl⟩ := List.getLast?_eq_some_iff.mp hlast
  refine mmKeys_eq_nil fun f hf ho => ?_
  have hafter := ho.2
  rcases List.mem_append.mp hf with hf | hf
  · have := (List.pairwise_append.mp hp).2.2 f hf last (List.mem_singleton_self _)
    omega
  · rw [List.mem_singleton.mp hf] at hafter
    omega

/-- From an index that has passed no item of the block, the keys are those of the block's items,
    and the next index has passed no item of the next block. -/
theorem genMmExtraHashKeys_spec (hp : Placed features) (hle : start ≤ stop)
    (h : Passed features index start) :
    (genMmExtraHashKeys features start stop index).1 = mmKeys features start stop ∧
      Passed features (genMmExtraHashKeys features start stop index).2 stop := by
  unfold genMmExtraHashKeys
  cases hlast : features.getLast? with
  | none =>
      have hnil : features = [] := List.getLast?_eq_none_iff.mp hlast
      subst hnil
      exact ⟨rfl, h.mono hle⟩
  | some last =>
      dsimp only
      split
      · next hend => exact ⟨(mmKeys_eq_nil_of_last hp hlast hend).symm, h.mono hle⟩
      · unfold Passed at h
        generalize mmPosition features index = pos at h ⊢
        have hfront : mmKeys (features.take pos) start stop = [] := mmKeys_eq_nil fun f hf ho => by
          have hend := h f hf
          have hafter := ho.2
          omega
        have hback : Placed (features.drop pos) := List.Pairwise.sublist (List.drop_sublist _ _) hp
        refine ⟨?_, ?_⟩
        · show (mmLoop start stop (features.drop pos)).1 = _
          rw [mmLoop_keys hback]
          conv_rhs => rw [← List.take_append_drop pos features, mmKeys_append, hfront]
          rfl
        · intro f hf
          dsimp only at hf
          rw [← Int.natCast_add, mmPosition_natCast, List.take_add] at hf
          rcases List.mem_append.mp hf with hf | hf
          · exact (h f hf).trans hle
          · exact mmLoop_passed hle f hf

end Items

/-! ## The chain of a request -/

/-- The extra keys of the tokens from `start` to `stop`, with the items that reach into them. -/
def extraKeys (r : Request) (start stop : Nat) : Option (List ExtraKey) :=
  let keys := genLoraExtraHashKeys r ++ mmKeys r.mmFeatures start stop ++ cacheSaltKeys r start ++
    genPromptEmbedsExtraHashKeys H r start stop
  if keys = [] then none else some keys

/-- What the hash of a block covers beside its parent. -/
abbrev BlockContent := List Nat × Option (List ExtraKey)

/-- Hash a block with the digest of what precedes it. -/
def chainStep (digest : BlockHash) (block : BlockContent) : BlockHash :=
  H.hashFunction ⟨digest, block.1, block.2⟩

/-- The content of block `k`. -/
def blockContent (size : Nat) (r : Request) (k : Nat) : BlockContent :=
  (slice r.allTokenIds (k * size) ((k + 1) * size), extraKeys H r (k * size) ((k + 1) * size))

/-- The contents of the full blocks. -/
def contents (size : Nat) (r : Request) : List BlockContent :=
  (List.range (r.numTokens / size)).map (blockContent H size r)

/-- The hashes of the full blocks, from the first on. -/
def prefixHashes (size : Nat) (r : Request) : List BlockHash :=
  digests (chainStep H) H.noneHash (contents H size r)

@[simp] theorem length_contents (size : Nat) (r : Request) :
    (contents H size r).length = r.numTokens / size := by simp [contents]

@[simp] theorem length_prefixHashes (size : Nat) (r : Request) :
    (prefixHashes H size r).length = r.numTokens / size := by simp [prefixHashes]

theorem generateBlockHashExtraKeys_spec {r : Request} {start stop : Nat} {index : Int}
    (hp : Placed r.mmFeatures) (hle : start ≤ stop) (h : Passed r.mmFeatures index start) :
    (generateBlockHashExtraKeys H r start stop index).1 = extraKeys H r start stop ∧
      Passed r.mmFeatures (generateBlockHashExtraKeys H r start stop index).2 stop := by
  obtain ⟨hkeys, hpassed⟩ := genMmExtraHashKeys_spec hp hle h
  refine ⟨?_, hpassed⟩
  simp only [generateBlockHashExtraKeys, extraKeys, hkeys]

@[simp] theorem parentDigest_chainStep (digest : BlockHash) (block : BlockContent) :
    parentDigest H (some (chainStep H digest block)) = chainStep H digest block :=
  if_neg (H.hash_ne_nil _)

/-- The last hash stands for all blocks hashed so far. -/
theorem parentDigest_getLast? (blocks : List BlockContent) :
    parentDigest H (digests (chainStep H) H.noneHash blocks).getLast? =
      blocks.foldl (chainStep H) H.noneHash := by
  rcases List.eq_nil_or_concat blocks with rfl | ⟨init, block, rfl⟩
  · rfl
  · rw [getLast?_digests _ _ (by simp), List.concat_eq_append, List.foldl_append, List.foldl_cons,
      List.foldl_nil, parentDigest_chainStep]

theorem hashLoop_eq {size : Nat} (hsize : 0 < size) {r : Request} (hp : Placed r.mmFeatures)
    (n : Nat) {fuel k : Nat} (hfuel : n ≤ fuel) (hk : k + n = r.numTokens / size) {index : Int}
    (h : Passed r.mmFeatures index (k * size)) (prev : Option BlockHash) :
    hashLoop H size r fuel (k * size) index prev =
      digests (chainStep H) (parentDigest H prev)
        ((List.range' k n).map (blockContent H size r)) := by
  induction n generalizing fuel k index prev with
  | zero =>
      -- the next block is not full
      have hlt : r.numTokens < (k + 1) * size :=
        (Nat.div_lt_iff_lt_mul hsize).mp (by omega)
      rw [Nat.succ_mul] at hlt
      cases fuel with
      | zero => rfl
      | succ fuel =>
          rw [hashLoop]
          dsimp only
          rw [if_pos hlt]
          rfl
  | succ n ih =>
      obtain ⟨fuel, rfl⟩ := Nat.exists_eq_add_one_of_ne_zero (show fuel ≠ 0 by omega)
      have hle : (k + 1) * size ≤ r.numTokens := by
        rw [← Nat.le_div_iff_mul_le hsize]
        omega
      rw [Nat.succ_mul] at hle
      obtain ⟨hkeys, hpassed⟩ := generateBlockHashExtraKeys_spec H hp
        (Nat.le_add_right (k * size) size) h
      rw [hashLoop, List.range'_succ, List.map_cons, digests]
      dsimp only
      rw [if_neg (by omega), hkeys]
      have hhead : hashBlockTokens H prev (slice r.allTokenIds (k * size) (k * size + size))
          (extraKeys H r (k * size) (k * size + size)) =
          chainStep H (parentDigest H prev) (blockContent H size r k) := by
        simp only [blockContent, Nat.succ_mul]
        rfl
      rw [hhead]
      congr 1
      have hrest := @ih fuel (k + 1) (by omega) (by omega)
        (generateBlockHashExtraKeys H r (k * size) (k * size + size) index).2
        (by rw [Nat.succ_mul]; exact hpassed)
        (some (chainStep H (parentDigest H prev) (blockContent H size r k)))
      rw [Nat.succ_mul] at hrest
      rw [hrest, parentDigest_chainStep]

/-- The block hashes are those of the full blocks. -/
def Request.Hashed (size : Nat) (r : Request) : Prop := r.blockHashes = prefixHashes H size r

/-- Hashing on from the first `m` blocks gives the hashes of all full blocks. -/
theorem updateBlockHashes_hashed {size : Nat} (hsize : 0 < size) {r : Request}
    (hp : Placed r.mmFeatures) {m : Nat} (hm : m ≤ r.numTokens / size)
    (hr : r.blockHashes = (prefixHashes H size r).take m)
    (hpassed : m = 0 ∨ Passed r.mmFeatures (-1) (m * size)) :
    (r.updateBlockHashes H size).Hashed H size := by
  have hlen : r.blockHashes.length = m := by
    rw [hr, List.length_take, length_prefixHashes]
    omega
  show r.blockHashes ++ requestBlockHasher H size r = prefixHashes H size r
  unfold requestBlockHasher
  rw [hlen]
  dsimp only
  split
  · next hshort =>
      -- no new full block
      have hdiv : r.numTokens / size < m + 1 :=
        (Nat.div_lt_iff_lt_mul hsize).mpr (by rw [Nat.succ_mul]; exact hshort)
      rw [hr, List.append_nil, List.take_of_length_le (by rw [length_prefixHashes]; omega)]
  · have hrange : contents H size r = (contents H size r).take m ++
        (List.range' m (r.numTokens / size - m)).map (blockContent H size r) := by
      conv_lhs => rw [← List.take_append_drop m (contents H size r)]
      congr 1
      rw [contents, ← List.map_drop, List.range_eq_range', List.drop_range']
      simp
    have hindex : Passed r.mmFeatures (if m * size > 0 then -1 else 0) (m * size) := by
      split
      · next hpos => exact hpassed.resolve_left (by rintro rfl; simp at hpos)
      · intro f hf
        simp [mmPosition] at hf
    have hfuel := (Nat.sub_le _ m).trans (Nat.div_le_self r.numTokens size)
    have hloop := hashLoop_eq H hsize hp _ hfuel (by omega) hindex r.blockHashes.getLast?
    have htake : r.blockHashes = digests (chainStep H) H.noneHash ((contents H size r).take m) := by
      rw [hr, prefixHashes, digests_take]
    rw [hloop, htake, parentDigest_getLast?, ← digests_append, ← hrange]
    rfl

/-- The contents of the blocks that are full already do not change when tokens are appended. -/
theorem contents_append (size : Nat) (r : Request) (tokens : List Nat) :
    (contents H size { r with allTokenIds := r.allTokenIds ++ tokens }).take (r.numTokens / size) =
      contents H size r := by
  have hle : r.numTokens / size ≤ (r.allTokenIds ++ tokens).length / size :=
    Nat.div_le_div_right (by simp [numTokens])
  unfold contents
  rw [← List.map_take, List.take_range]
  show List.map _
    (List.range (min (r.numTokens / size) ((r.allTokenIds ++ tokens).length / size))) = _
  rw [Nat.min_eq_left hle]
  refine List.map_congr_left fun k hk => ?_
  have hend : (k + 1) * size ≤ r.allTokenIds.length :=
    (Nat.mul_le_mul_right size (List.mem_range.mp hk)).trans (Nat.div_mul_le_self _ _)
  have hstart : k * size ≤ (k + 1) * size := Nat.mul_le_mul_right size (Nat.le_succ k)
  unfold blockContent
  congr 1
  unfold slice
  rw [List.drop_append_of_le_length (by omega), List.take_append_of_le_length (by simp; omega)]

namespace Request

/-- The items are placed in the prompt, and all but the last of them end in the blocks that the
    prompt fills. -/
structure Covered (size : Nat) (r : Request) : Prop where
  placed : Placed r.mmFeatures
  inPrompt : ∀ f ∈ r.mmFeatures, f.offset + f.length ≤ r.numPromptTokens
  inFull : size ≤ r.numPromptTokens → ∀ f ∈ r.mmFeatures.dropLast,
    f.offset + f.length ≤ r.numPromptTokens / size * size

variable {size : Nat} {r : Request}

/-- The last item is the only one that later calls can meet. -/
theorem Covered.passed (hc : r.Covered size) {m : Nat}
    (hm : r.numPromptTokens / size ≤ m) : m = 0 ∨ Passed r.mmFeatures (-1) (m * size) := by
  rcases Nat.eq_zero_or_pos m with h0 | hpos
  · exact .inl h0
  · refine .inr fun f hf => ?_
    have hpos' : mmPosition r.mmFeatures (-1) = r.mmFeatures.length - 1 := by
      unfold mmPosition
      omega
    rw [hpos', ← List.dropLast_eq_take] at hf
    rcases Nat.lt_or_ge r.numPromptTokens size with hlt | hge
    · have hprompt := hc.inPrompt f (List.dropLast_subset _ hf)
      have hblock : 1 * size ≤ m * size := Nat.mul_le_mul_right size hpos
      omega
    · exact (hc.inFull hge f hf).trans (Nat.mul_le_mul_right size hm)

theorem create_hashed (hsize : 0 < size) (hp : Placed r.mmFeatures) (prompt : List Nat) :
    (r.create H size prompt).Hashed H size :=
  updateBlockHashes_hashed H hsize (m := 0) hp (Nat.zero_le _) rfl (.inl rfl)

theorem appendOutputTokenIds_hashed (hsize : 0 < size) (hc : r.Covered size)
    (hle : r.numPromptTokens ≤ r.numTokens) (hr : r.Hashed H size) (tokenIds : List Nat) :
    (r.appendOutputTokenIds H size tokenIds).Hashed H size := by
  refine updateBlockHashes_hashed H hsize (m := r.numTokens / size) hc.placed ?_ ?_ ?_
  · exact Nat.div_le_div_right (by simp [numTokens])
  · refine hr.trans ?_
    rw [prefixHashes, prefixHashes, ← digests_take, contents_append]
  · exact hc.passed (Nat.div_le_div_right hle)

/-- A request after chunks of output tokens. -/
def appendAll (size : Nat) (r : Request) (chunks : List (List Nat)) : Request :=
  chunks.foldl (appendOutputTokenIds H size) r

theorem appendAll_fields (chunks : List (List Nat)) (r : Request) :
    appendAll H size r chunks =
      { r with
        allTokenIds := r.allTokenIds ++ chunks.flatten
        blockHashes := (appendAll H size r chunks).blockHashes } := by
  induction chunks generalizing r with
  | nil => simp [appendAll]
  | cons chunk chunks ih =>
      show appendAll H size (r.appendOutputTokenIds H size chunk) chunks = _
      rw [ih]
      simp [appendOutputTokenIds, updateBlockHashes, appendAll]

theorem appendAll_hashed (hsize : 0 < size) (chunks : List (List Nat)) {r : Request}
    (hc : r.Covered size) (hle : r.numPromptTokens ≤ r.numTokens) (hr : r.Hashed H size) :
    (r.appendAll H size chunks).Hashed H size := by
  induction chunks generalizing r with
  | nil => exact hr
  | cons chunk chunks ih =>
      refine ih ⟨hc.placed, hc.inPrompt, hc.inFull⟩ ?_
        (appendOutputTokenIds_hashed H hsize hc hle hr chunk)
      exact hle.trans (by simp [numTokens, appendOutputTokenIds, updateBlockHashes])

end Request

/-- **Hashing on agrees with hashing at once.** A request whose prompt is hashed first and whose
    output tokens are appended in any chunks has the block hashes of a request that is made with
    all these tokens, when the items stand in the prompt and all but the last end in the blocks
    that the prompt fills. -/
theorem blockHashes_appended {size : Nat} (hsize : 0 < size) (r : Request) (prompt : List Nat)
    (hc : (r.create H size prompt).Covered size) (chunks : List (List Nat)) :
    ((r.create H size prompt).appendAll H size chunks).blockHashes =
      (r.create H size (prompt ++ chunks.flatten)).blockHashes := by
  have hgrown := appendAll_hashed H hsize chunks hc (Nat.le_refl _)
    (create_hashed H hsize hc.placed prompt)
  have hfresh := create_hashed H hsize (r := r) hc.placed (prompt ++ chunks.flatten)
  rw [hgrown, hfresh, appendAll_fields]
  rfl

/-- A hash function that keeps the parent and the tokens. -/
def plainHashing : Hashing where
  hashFunction x := 0 :: (x.tokens.map UInt8.ofNat ++ x.parent)
  sha256 b := b
  noneHash := [1]
  hash_ne_nil := by simp

/-- A request with two images, the second of which reaches behind the first block. -/
def twoImages : Request where
  allTokenIds := []
  numPromptTokens := 0
  mmFeatures := [⟨"first", 0, 2⟩, ⟨"second", 3, 2⟩]
  loraRequest := none
  cacheSalt := some "salt"
  promptEmbeds := none
  blockHashes := []

theorem blockHashes_appended_twoImages :
    ((twoImages.create plainHashing 4 [7, 7, 1, 8, 8]).appendAll plainHashing 4
      [[2], [3, 4]]).blockHashes =
      (twoImages.create plainHashing 4 ([7, 7, 1, 8, 8] ++ [[2], [3, 4]].flatten)).blockHashes :=
  blockHashes_appended plainHashing (by decide) twoImages [7, 7, 1, 8, 8]
    ⟨by decide, by decide, fun _ => by decide⟩ [[2], [3, 4]]

/-! ## What a hash tells -/

/-- The adapter's name. -/
def Request.adapter (r : Request) : Option String := r.loraRequest.map (·.loraName)

/-- The salt, if it is not empty. -/
def Request.salt (r : Request) : Option String := r.cacheSalt.filter (· ≠ "")

theorem genLoraExtraHashKeys_eq (r : Request) :
    genLoraExtraHashKeys r = r.adapter.toList.map .text := by
  unfold genLoraExtraHashKeys Request.adapter
  cases r.loraRequest <;> rfl

theorem cacheSaltKeys_eq (r : Request) (start : Nat) :
    cacheSaltKeys r start = if start = 0 then r.salt.toList.map .text else [] := by
  unfold cacheSaltKeys Request.salt
  cases r.cacheSalt with
  | none => simp
  | some salt =>
      by_cases hs : start = 0 <;> by_cases he : salt = "" <;> simp [hs, he, Option.filter]

section Keys

def ExtraKey.isText : ExtraKey → Bool
  | .text _ => true
  | _ => false

def ExtraKey.isItem : ExtraKey → Bool
  | .item _ _ => true
  | _ => false

def ExtraKey.isBytes : ExtraKey → Bool
  | .bytes _ => true
  | _ => false

/-- Texts, items, texts and bytes in a row. -/
structure KeyRow (l : List String) (m : List ExtraKey) (s : List String) (e row : List ExtraKey) :
    Prop where
  items : ∀ k ∈ m, ∃ id offset, k = .item id offset
  bytes : ∀ k ∈ e, ∃ b, k = .bytes b
  row : row = l.map .text ++ m ++ s.map .text ++ e

namespace KeyRow

variable {l l' s s' : List String} {m m' e e' row : List ExtraKey}

/-- A row filtered by a test that tells only the kind of a key. -/
theorem filter_eq (h : KeyRow l m s e row) (p : ExtraKey → Bool) {t i b : Bool}
    (ht : ∀ x, p (.text x) = t) (hi : ∀ x o, p (.item x o) = i) (hb : ∀ x, p (.bytes x) = b) :
    row.filter p = (if t then l.map .text else []) ++ (if i then m else []) ++
      (if t then s.map .text else []) ++ if b then e else [] := by
  have hconst : ∀ (xs : List ExtraKey) (c : Bool), (∀ k ∈ xs, p k = c) →
      xs.filter p = if c then xs else [] := by
    intro xs c hc
    cases c with
    | false => exact List.filter_eq_nil_iff.mpr fun k hk => by simp [hc k hk]
    | true => exact List.filter_eq_self.mpr hc
  have htext : ∀ xs : List String, ∀ k ∈ xs.map ExtraKey.text, p k = t := by simp [ht]
  rw [h.row, List.filter_append, List.filter_append, List.filter_append, hconst _ t (htext l),
    hconst _ t (htext s), hconst m i fun k hk => ?_, hconst e b fun k hk => ?_]
  · obtain ⟨x, rfl⟩ := h.bytes k hk
    exact hb x
  · obtain ⟨x, o, rfl⟩ := h.items k hk
    exact hi x o

theorem filter_isItem (h : KeyRow l m s e row) : row.filter ExtraKey.isItem = m := by
  simpa using h.filter_eq ExtraKey.isItem (fun _ => rfl) (fun _ _ => rfl) fun _ => rfl

theorem filter_isBytes (h : KeyRow l m s e row) : row.filter ExtraKey.isBytes = e := by
  simpa using h.filter_eq ExtraKey.isBytes (fun _ => rfl) (fun _ _ => rfl) fun _ => rfl

theorem filter_isText (h : KeyRow l m s e row) :
    row.filter ExtraKey.isText = (l ++ s).map .text := by
  simpa using h.filter_eq ExtraKey.isText (fun _ => rfl) (fun _ _ => rfl) fun _ => rfl

/-- The texts in front of the items. -/
theorem takeWhile_text (h : KeyRow l m s e row) (hm : m ≠ []) :
    row.takeWhile ExtraKey.isText = l.map .text := by
  obtain ⟨k, m, rfl⟩ := List.exists_cons_of_ne_nil hm
  obtain ⟨id, offset, rfl⟩ := h.items k List.mem_cons_self
  have htext : ∀ k ∈ l.map ExtraKey.text, k.isText = true := by simp [ExtraKey.isText]
  rw [h.row, List.append_assoc, List.append_assoc, List.takeWhile_append_of_pos htext]
  simp [ExtraKey.isText]

/-- The items and the bytes can be told from a row, and so can the two groups of texts when
    there are items between them. -/
theorem eq_iff {row' : List ExtraKey} (h : KeyRow l m s e row) (h' : KeyRow l' m' s' e' row') :
    row = row' ↔ m = m' ∧ e = e' ∧ (l = l' ∧ s = s' ∨ m = [] ∧ l ++ s = l' ++ s') := by
  constructor
  · rintro rfl
    have hm : m = m' := h.filter_isItem.symm.trans h'.filter_isItem
    have hinj := List.map_injective_iff.mpr fun x y he => @ExtraKey.text.inj x y he
    have hls : l ++ s = l' ++ s' := hinj (h.filter_isText.symm.trans h'.filter_isText)
    refine ⟨hm, h.filter_isBytes.symm.trans h'.filter_isBytes, ?_⟩
    by_cases hnil : m = []
    · exact .inr ⟨hnil, hls⟩
    · have hl : l.map ExtraKey.text = l'.map ExtraKey.text :=
        (h.takeWhile_text hnil).symm.trans (h'.takeWhile_text (hm ▸ hnil))
      obtain rfl := hinj hl
      exact .inl ⟨rfl, List.append_cancel_left hls⟩
  · rintro ⟨rfl, rfl, ⟨rfl, rfl⟩ | ⟨rfl, hls⟩⟩
    · rw [h.row, h'.row]
    · rw [h.row, h'.row, List.append_nil, List.append_nil, ← List.map_append,
        ← List.map_append, hls]

end KeyRow

variable {H}

theorem keyRow (r : Request) (start stop : Nat) :
    KeyRow r.adapter.toList (mmKeys r.mmFeatures start stop)
      (if start = 0 then r.salt.toList else []) (genPromptEmbedsExtraHashKeys H r start stop)
      (genLoraExtraHashKeys r ++ mmKeys r.mmFeatures start stop ++ cacheSaltKeys r start ++
        genPromptEmbedsExtraHashKeys H r start stop) where
  items k hk := by
    obtain ⟨f, -, rfl⟩ := List.mem_map.mp hk
    exact ⟨_, _, rfl⟩
  bytes k hk := by
    unfold genPromptEmbedsExtraHashKeys at hk
    split at hk
    · cases hk
    · exact ⟨_, List.mem_singleton.mp hk⟩
  row := by
    rw [genLoraExtraHashKeys_eq, cacheSaltKeys_eq]
    split <;> rfl

end Keys

theorem toList_append_eq_iff {α : Type} {a s a' s' : Option α} :
    a.toList ++ s.toList = a'.toList ++ s'.toList ↔
      a = a' ∧ s = s' ∨ (∃ x, a = some x ∧ s = none ∧ a' = none ∧ s' = some x) ∨
        ∃ x, a' = some x ∧ s' = none ∧ a = none ∧ s = some x := by
  cases a <;> cases s <;> cases a' <;> cases s' <;> grind

/-! Slices of the tokens. -/

theorem slice_take {α : Type} (xs : List α) {start stop n : Nat} (h : stop ≤ n) :
    slice (xs.take n) start stop = slice xs start stop := by
  unfold slice
  rw [List.drop_take, List.take_take, Nat.min_eq_left (by omega)]

/-- Tokens agree up to the end of a block when they agree block by block. -/
theorem slices_eq_iff {α : Type} (xs ys : List α) (size i : Nat) :
    (∀ k ≤ i, slice xs (k * size) ((k + 1) * size) = slice ys (k * size) ((k + 1) * size)) ↔
      xs.take ((i + 1) * size) = ys.take ((i + 1) * size) := by
  constructor
  · intro h
    induction i with
    | zero => simpa [slice] using h 0 (Nat.le_refl 0)
    | succ i ih =>
        have hlast := h (i + 1) (Nat.le_refl _)
        have hfront := ih fun k hk => h k (Nat.le_succ_of_le hk)
        unfold slice at hlast
        rw [Nat.succ_mul (i + 1) size, Nat.add_sub_cancel_left] at hlast
        rw [Nat.succ_mul (i + 1) size, List.take_add, List.take_add, hfront, hlast]
  · intro h k hk
    have hle : (k + 1) * size ≤ (i + 1) * size := Nat.mul_le_mul_right size (by omega)
    rw [← slice_take xs hle, h, slice_take ys hle]

/-- One request has an adapter and no salt, the other a salt with the adapter's name and no
    adapter. -/
def Exchanged (r r' : Request) : Prop :=
  ∃ name, r.adapter = some name ∧ r.salt = none ∧ r'.adapter = none ∧ r'.salt = some name

/-- The requests agree on the tokens, the items and the embeddings of the blocks up to `i`. -/
structure AgreeUpTo (size i : Nat) (r r' : Request) : Prop where
  tokens : r.allTokenIds.take ((i + 1) * size) = r'.allTokenIds.take ((i + 1) * size)
  items : ∀ k ≤ i, mmKeys r.mmFeatures (k * size) ((k + 1) * size) =
    mmKeys r'.mmFeatures (k * size) ((k + 1) * size)
  embeds : ∀ k ≤ i, genPromptEmbedsExtraHashKeys H r (k * size) ((k + 1) * size) =
    genPromptEmbedsExtraHashKeys H r' (k * size) ((k + 1) * size)

variable {r r' : Request} {size : Nat}

theorem extraKeys_eq_iff {start stop : Nat} :
    extraKeys H r start stop = extraKeys H r' start stop ↔
      mmKeys r.mmFeatures start stop = mmKeys r'.mmFeatures start stop ∧
        genPromptEmbedsExtraHashKeys H r start stop = genPromptEmbedsExtraHashKeys H r' start stop ∧
          (r.adapter = r'.adapter ∧ (start = 0 → r.salt = r'.salt) ∨
            start = 0 ∧ mmKeys r.mmFeatures start stop = [] ∧
              (Exchanged r r' ∨ Exchanged r' r)) := by
  have hsome : ∀ {xs ys : List ExtraKey}, (if xs = [] then none else some xs) =
      (if ys = [] then none else some ys) ↔ xs = ys := by
    intro xs ys
    by_cases hx : xs = [] <;> by_cases hy : ys = [] <;> simp [hx, hy, eq_comm]
  have htoList : ∀ {a b : Option String}, a.toList = b.toList ↔ a = b := by
    intro a b
    cases a <;> cases b <;> simp
  unfold extraKeys
  rw [hsome, (keyRow r start stop).eq_iff (keyRow r' start stop)]
  refine and_congr_right fun _ => and_congr_right fun _ => ?_
  by_cases hstart : start = 0
  · simp only [hstart, if_true, true_and, true_implies, htoList, toList_append_eq_iff]
    constructor
    · rintro (hsame | ⟨hnil, hsame | hexchanged⟩)
      · exact .inl hsame
      · exact .inl hsame
      · exact .inr ⟨hnil, hexchanged⟩
    · rintro (hsame | ⟨hnil, hexchanged⟩)
      · exact .inl hsame
      · exact .inr ⟨hnil, .inr hexchanged⟩
  · simp only [hstart, if_false, List.append_nil, htoList, and_true, false_and, or_false,
      false_implies]
    tauto

/-- Block contents that agree up to `i`. -/
theorem blockContents_eq_iff (hsize : 0 < size) {i : Nat} :
    (∀ k ≤ i, blockContent H size r k = blockContent H size r' k) ↔
      AgreeUpTo H size i r r' ∧ (r.adapter = r'.adapter ∧ r.salt = r'.salt ∨
        i = 0 ∧ mmKeys r.mmFeatures 0 size = [] ∧ (Exchanged r r' ∨ Exchanged r' r)) := by
  have hzero : ∀ k : Nat, k * size = 0 ↔ k = 0 := fun k => by
    rw [Nat.mul_eq_zero]
    omega
  simp only [blockContent, Prod.mk.injEq, extraKeys_eq_iff, hzero]
  constructor
  · intro h
    refine ⟨⟨?_, fun k hk => (h k hk).2.1, fun k hk => (h k hk).2.2.1⟩, ?_⟩
    · exact (slices_eq_iff _ _ size i).mp fun k hk => (h k hk).1
    · rcases (h 0 (Nat.zero_le i)).2.2.2 with ⟨hadapter, hsalt⟩ | ⟨-, hnil, hexchanged⟩
      · exact .inl ⟨hadapter, hsalt rfl⟩
      · -- the second block has no salt, so its texts tell the adapters
        refine .inr ⟨?_, by simpa using hnil, hexchanged⟩
        by_contra hi
        rcases (h 1 (Nat.one_le_iff_ne_zero.mpr hi)).2.2.2 with ⟨hadapter, -⟩ | ⟨h1, -⟩
        · rcases hexchanged with ⟨name, ha, -, ha', -⟩ | ⟨name, ha, -, ha', -⟩ <;>
            simp [ha, ha'] at hadapter
        · cases h1
  · rintro ⟨hagree, hsame⟩ k hk
    refine ⟨(slices_eq_iff _ _ size i).mpr hagree.tokens k hk, hagree.items k hk,
      hagree.embeds k hk, ?_⟩
    rcases hsame with ⟨hadapter, hsalt⟩ | ⟨rfl, hnil, hexchanged⟩
    · exact .inl ⟨hadapter, fun _ => hsalt⟩
    · obtain rfl : k = 0 := Nat.le_zero.mp hk
      exact .inr ⟨rfl, by simpa using hnil, hexchanged⟩

/-- Equal hashes of two hashed requests that do not collide: the blocks up to there are equal. -/
theorem hash_eq_iff_contents (hr : r.Hashed H size) (hr' : r'.Hashed H size)
    (hfree : ¬ Collides (chainStep H) H.noneHash (contents H size r) (contents H size r'))
    {i j : Nat} (hi : i < r.blockHashes.length) (hj : j < r'.blockHashes.length) :
    r.blockHashes[i]? = r'.blockHashes[j]? ↔
      i = j ∧ ∀ k ≤ i, blockContent H size r k = blockContent H size r' k := by
  rw [hr, length_prefixHashes] at hi
  rw [hr', length_prefixHashes] at hj
  have hlen := length_contents H size r
  have hlen' := length_contents H size r'
  rw [hr, hr', prefixHashes, prefixHashes, getElem?_digests _ _ _ (by omega),
    getElem?_digests _ _ _ (by omega), Option.some_inj]
  constructor
  · intro he
    rcases binding _ _ he with heq | hc
    · have hij : i = j := by
        have := congrArg List.length heq
        simp only [List.length_take, hlen, hlen'] at this
        omega
      subst hij
      refine ⟨rfl, fun k hk => ?_⟩
      have hget := congrArg (·[k]?) heq
      simpa [contents, List.getElem?_take, show k < i + 1 by omega, show k < _ from hk.trans_lt hi,
        show k < _ from hk.trans_lt hj] using hget
    · exact absurd (hc.mono (List.take_prefix _ _) (List.take_prefix _ _)) hfree
  · rintro ⟨rfl, h⟩
    congr 1
    unfold contents
    rw [← List.map_take, ← List.map_take, List.take_range, List.take_range,
      Nat.min_eq_left (by omega), Nat.min_eq_left (by omega)]
    exact List.map_congr_left fun k hk => h k (Nat.lt_succ_iff.mp (List.mem_range.mp hk))

/-- A request of two tokens for an adapter. -/
def adapterRequest : Request :=
  { twoImages with mmFeatures := [], loraRequest := some ⟨"tenant"⟩, cacheSalt := none }

/-- A request of two tokens for the base model, with the adapter's name as salt. -/
def saltedRequest : Request := { twoImages with mmFeatures := [], cacheSalt := some "tenant" }

end Sock.Kv
