import Mathlib.Data.List.Nodup
import Mathlib.Data.List.Range
import Rmnet.Frag.Ingress

/-!
# Who owns a descriptor

`Pool port held leaked good` accounts for every descriptor of the pool: it is on the free list, held by
the running code, or leaked.  While `good` holds, the log of calls shows that each recycled descriptor had
been handed out since it was last recycled.  A second recycle of a descriptor keeps the account (the
descriptor moves to the end of the free list) and gives up `good`.

There is one lemma for each function that touches the pool: what it takes over and what it gives back, for
every outcome of its allocations.
-/

namespace Rmnet

open Word Field

/-! ### The log -/

/-- The descriptor has been handed out and not recycled since. -/
def TakenIn (events : List PoolEvent) (a : ℕ) : Prop :=
  ∃ pre post, events = pre ++ .got a :: post ∧ PoolEvent.recycled a ∉ post

/-- Whenever a descriptor is recycled, it has been handed out since its last recycling. -/
def NoDoubleRecycle (events : List PoolEvent) : Prop :=
  ∀ pre a post, events = pre ++ .recycled a :: post → TakenIn pre a

theorem TakenIn.snoc {events : List PoolEvent} {a : ℕ} (h : TakenIn events a) {e : PoolEvent}
    (he : e ≠ .recycled a) : TakenIn (events ++ [e]) a := by
  obtain ⟨pre, post, rfl, hpost⟩ := h
  refine ⟨pre, post ++ [e], by simp, ?_⟩
  intro hmem
  rcases List.mem_append.mp hmem with hmem | hmem
  · exact hpost hmem
  · exact he (List.mem_singleton.mp hmem).symm

theorem takenIn_got (events : List PoolEvent) (a : ℕ) : TakenIn (events ++ [.got a]) a :=
  ⟨events, [], rfl, List.not_mem_nil⟩

/-- One more event: it has to be a recycling of a descriptor that is out. -/
theorem NoDoubleRecycle.snoc {events : List PoolEvent} (h : NoDoubleRecycle events) {e : PoolEvent}
    (he : ∀ a, e = .recycled a → TakenIn events a) : NoDoubleRecycle (events ++ [e]) := by
  intro pre a post heq
  rcases List.eq_nil_or_concat post with rfl | ⟨post', x, rfl⟩
  · obtain ⟨rfl, hlast⟩ := List.append_inj' heq rfl
    exact he a (List.cons.inj hlast).1
  · rw [List.concat_eq_append, ← List.cons_append, ← List.append_assoc] at heq
    exact h pre a post' (List.append_inj' heq rfl).1

/-! ### The account -/

/-- Every descriptor is free, held or leaked; and while `good` holds, no descriptor was recycled twice
and those held are out. -/
structure Pool (port : RmnetPort) (held leaked : List ℕ) (good : Prop) : Prop where
  account : (port.freeList ++ (held ++ leaked)).Perm (List.range port.poolSize)
  log : good → NoDoubleRecycle port.events ∧ ∀ a ∈ held, TakenIn port.events a

section Account

variable {port port' : RmnetPort} {held leaked : List ℕ} {good good' : Prop}

theorem Pool.of_samePool (h : Pool port held leaked good) (hs : port.SamePool port') :
    Pool port' held leaked good := by
  refine ⟨?_, ?_⟩
  · rw [← hs.freeList, ← hs.poolSize]
    exact h.account
  · rw [← hs.events]
    exact h.log

theorem Pool.mono (h : Pool port held leaked good) (hg : good' → good) : Pool port held leaked good' :=
  ⟨h.account, fun hg' => h.log (hg hg')⟩

/-- The order in which descriptors are held does not matter. -/
theorem Pool.perm (h : Pool port held leaked good) {held' : List ℕ} (hp : held.Perm held') :
    Pool port held' leaked good := by
  refine ⟨?_, fun hg => ⟨(h.log hg).1, fun a ha => (h.log hg).2 a (hp.mem_iff.mpr ha)⟩⟩
  exact ((hp.symm.append_right leaked).append_left port.freeList).trans h.account

theorem Pool.nodup (h : Pool port held leaked good) : (port.freeList ++ (held ++ leaked)).Nodup :=
  h.account.nodup_iff.mpr List.nodup_range

theorem Pool.not_free {a : ℕ} (h : Pool port (a :: held) leaked good) : a ∉ port.freeList := by
  intro hmem
  have hdisj := (List.nodup_append.mp h.nodup).2.2
  exact hdisj _ hmem _ (List.mem_append_left _ List.mem_cons_self) rfl

/-- A descriptor that is held and forgotten. -/
theorem Pool.lose {a : ℕ} (h : Pool port (a :: held) leaked good) : Pool port held (a :: leaked) good := by
  refine ⟨?_, fun hg => ⟨(h.log hg).1, fun b hb => (h.log hg).2 b (List.mem_cons_of_mem _ hb)⟩⟩
  exact (List.Perm.append_left _ List.perm_middle).trans h.account

/-- **`rmnet_get_frag_descriptor`** hands out a descriptor. -/
theorem Pool.get (h : Pool port held leaked good) {desc : RmnetFragDescriptor}
    (hget : rmnetGetFragDescriptor port = (port', some desc)) :
    Pool port' (desc.addr :: held) leaked good ∧ port'.events = port.events ++ [.got desc.addr] ∧
      desc = { addr := desc.addr } := by
  have hlog : ∀ a, good → NoDoubleRecycle (port.events ++ [.got a]) ∧
      ∀ b ∈ a :: held, TakenIn (port.events ++ [.got a]) b := by
    intro a hg
    obtain ⟨hno, hheld⟩ := h.log hg
    refine ⟨hno.snoc (fun b hb => by cases hb), ?_⟩
    intro b hb
    rcases List.mem_cons.mp hb with rfl | hb
    · exact takenIn_got _ _
    · exact (hheld b hb).snoc fun he => by cases he
  unfold rmnetGetFragDescriptor at hget
  split at hget
  · rename_i a rest hfree
    obtain ⟨hport, hdesc⟩ := Prod.mk.inj hget
    cases hdesc
    subst hport
    refine ⟨⟨?_, hlog a⟩, rfl, rfl⟩
    have hacc := h.account
    rw [hfree, List.cons_append] at hacc
    exact (List.perm_middle (a := a)).trans hacc
  · rename_i hfree
    split at hget
    · cases hget
    · rename_i p hk
      obtain ⟨-, rfl⟩ := Prod.mk.inj hk
      obtain ⟨hport, hdesc⟩ := Prod.mk.inj hget
      cases hdesc
      subst hport
      refine ⟨⟨?_, hlog _⟩, rfl, rfl⟩
      have hacc := h.account
      rw [hfree, List.nil_append] at hacc
      show (port.freeList ++ (port.poolSize :: held ++ leaked)).Perm (List.range (port.poolSize + 1))
      rw [hfree, List.nil_append, List.range_succ, List.cons_append]
      exact (hacc.cons _).trans (List.perm_append_singleton _ _).symm

theorem Pool.get_none (h : Pool port held leaked good)
    (hget : rmnetGetFragDescriptor port = (port', none)) :
    Pool port' held leaked good ∧ port'.events = port.events := by
  unfold rmnetGetFragDescriptor at hget
  split at hget
  · cases hget
  · split at hget
    · rename_i p hk
      obtain ⟨-, rfl⟩ := Prod.mk.inj hk
      obtain ⟨rfl, -⟩ := Prod.mk.inj hget
      exact ⟨h.of_samePool (samePool_kalloc port), rfl⟩
    · cases hget

/-- **`rmnet_recycle_frag_descriptor`** takes a held descriptor back. -/
theorem Pool.recycle {desc : RmnetFragDescriptor} (h : Pool port (desc.addr :: held) leaked good) :
    Pool (rmnetRecycleFragDescriptor port desc).1 held leaked good := by
  have hfree := h.not_free
  have hheld := (List.nodup_append.mp h.nodup).2.1
  rw [List.cons_append] at hheld
  have hnot : desc.addr ∉ held := by
    intro hmem
    exact (List.nodup_cons.mp hheld).1 (List.mem_append_left _ hmem)
  refine ⟨?_, ?_⟩
  · show (port.freeList.erase desc.addr ++ [desc.addr] ++ (held ++ leaked)).Perm (List.range port.poolSize)
    rw [List.erase_of_not_mem hfree, List.append_assoc, List.singleton_append]
    exact h.account
  · intro hg
    obtain ⟨hno, htaken⟩ := h.log hg
    refine ⟨hno.snoc ?_, ?_⟩
    · intro a ha
      cases ha
      exact htaken _ List.mem_cons_self
    · intro b hb
      refine (htaken b (List.mem_cons_of_mem _ hb)).snoc ?_
      intro he
      cases he
      exact hnot hb

/-- Recycling a descriptor that is free keeps the account. -/
theorem Pool.recycle_again {desc : RmnetFragDescriptor} (h : Pool port held leaked good)
    (hfree : desc.addr ∈ port.freeList) :
    Pool (rmnetRecycleFragDescriptor port desc).1 held leaked False := by
  refine ⟨?_, False.elim⟩
  show (port.freeList.erase desc.addr ++ [desc.addr] ++ (held ++ leaked)).Perm (List.range port.poolSize)
  refine (List.Perm.append_right _ ?_).trans h.account
  exact (List.perm_append_singleton _ _).trans (List.perm_cons_erase hfree).symm

theorem recycled_free (port : RmnetPort) (desc : RmnetFragDescriptor) :
    desc.addr ∈ (rmnetRecycleFragDescriptor port desc).1.freeList :=
  List.mem_append_right _ (List.mem_singleton_self _)

/-! ### Shortening -/

theorem rmnetFragPull_of_le {desc : RmnetFragDescriptor} {size : ℕ} (h : desc.len ≤ size) :
    rmnetFragPull port desc size
      = ((rmnetRecycleFragDescriptor port desc).1, { addr := desc.addr }, false) := by
  unfold rmnetFragPull
  rw [if_pos h]
  rfl

theorem rmnetFragPull_of_lt {desc : RmnetFragDescriptor} {size : ℕ} (h : size < desc.len) :
    ∃ ok, rmnetFragPull port desc size
      = (port, { desc with frags := (pullFrags desc.frags size desc.len).1
                           len := (pullFrags desc.frags size desc.len).2 }, ok) := by
  unfold rmnetFragPull
  rw [if_neg (by omega)]
  exact ⟨_, rfl⟩

theorem rmnetFragTrim_zero (desc : RmnetFragDescriptor) :
    rmnetFragTrim port desc 0
      = ((rmnetRecycleFragDescriptor port desc).1, { addr := desc.addr }, false) := rfl

theorem rmnetFragTrim_of_pos (port : RmnetPort) (desc : RmnetFragDescriptor) {size : ℕ} (h : size ≠ 0) :
    ∃ frags len ok, rmnetFragTrim port desc size
      = (port, { desc with frags := frags, len := len }, ok) := by
  unfold rmnetFragTrim
  rw [if_neg h]
  split
  · exact ⟨desc.frags, desc.len, _, rfl⟩
  · exact ⟨_, _, _, rfl⟩

/-! ### Segments -/

/-- Adding fragments leaves the pool alone and changes nothing else in the descriptor. -/
theorem addFragsLoop_any (fs : List SkbFrag) :
    ∀ (port : RmnetPort) (dst : RmnetFragDescriptor) (off len : ℕ),
      port.SamePool (addFragsLoop port dst fs off len).1 ∧
        (∃ frags n, (addFragsLoop port dst fs off len).2.1 = { dst with frags := frags, len := n }) ∧
        ((addFragsLoop port dst fs off len).2.2 = true → off + len ≤ fragsSize fs →
          dst.len + len < 4294967296 → (addFragsLoop port dst fs off len).2.1.len = dst.len + len) := by
  induction fs with
  | nil =>
    intro port dst off len
    refine ⟨.rfl, ⟨_, _, rfl⟩, ?_⟩
    intro _ hle _
    rw [fragsSize_nil] at hle
    show dst.len = _
    omega
  | cons f fs ih =>
    intro port dst off len
    rw [addFragsLoop, fragsSize_cons]
    split
    · rename_i hz
      exact ⟨.rfl, ⟨_, _, rfl⟩, fun _ _ _ => by rw [hz]; rfl⟩
    · split
      · rename_i hoff
        unfold rmnetFragDescriptorAddFrag
        cases hk : port.kalloc with
        | mk ok port₁ =>
          have hsame : port.SamePool port₁ := by
            have := samePool_kalloc port
            rw [hk] at this
            exact this
          cases ok with
          | false => exact ⟨hsame, ⟨_, _, rfl⟩, fun h => by cases h⟩
          | true =>
            simp only
            obtain ⟨hp, ⟨frags, n, hd⟩, hlen⟩ := ih port₁
              { dst with frags := dst.frags ++ [f.slice off (min len (f.size - off))]
                         len := u32 (dst.len + min len (f.size - off)) } 0 (len - min len (f.size - off))
            refine ⟨hsame.trans hp, ⟨frags, n, hd⟩, ?_⟩
            intro hok hle hlt
            have hu : u32 (dst.len + min len (f.size - off)) = dst.len + min len (f.size - off) :=
              u32_of_lt (by omega)
            refine (hlen hok (by omega) (by simp only [hu]; omega)).trans ?_
            simp only [hu]
            omega
      · obtain ⟨hp, hd, hlen⟩ := ih port dst (off - f.size) len
        exact ⟨hp, hd, fun hok hle hlt => hlen hok (by omega) hlt⟩

theorem addFragsFrom_any (port : RmnetPort) (dst src : RmnetFragDescriptor) (off len : ℕ) :
    port.SamePool (rmnetFragDescriptorAddFragsFrom port dst src off len).1 ∧
      (∃ frags n, (rmnetFragDescriptorAddFragsFrom port dst src off len).2.1
        = { dst with frags := frags, len := n }) ∧
      ((rmnetFragDescriptorAddFragsFrom port dst src off len).2.2 = true → src.Sized →
        off + len ≤ src.len ∧ (dst.len + len < 4294967296 →
          (rmnetFragDescriptorAddFragsFrom port dst src off len).2.1.len = dst.len + len)) := by
  unfold rmnetFragDescriptorAddFragsFrom
  split
  · exact ⟨.rfl, ⟨_, _, rfl⟩, fun h => by cases h⟩
  · rename_i hout
    obtain ⟨hp, hd, hlen⟩ := addFragsLoop_any src.frags port dst off len
    refine ⟨hp, hd, ?_⟩
    intro hok hs
    have hle : off + len ≤ src.len := by
      rw [outside_iff hs] at hout
      omega
    exact ⟨hle, hlen hok (by rw [← hs.len_eq]; exact hle)⟩

/-- The metadata of a new descriptor do not concern its address and lengths. -/
structure SameShape (d d' : RmnetFragDescriptor) : Prop where
  addr : d'.addr = d.addr
  len : d'.len = d.len
  ipLen : d'.ipLen = d.ipLen
  transLen : d'.transLen = d.transLen

theorem segmentMeta_shape {coal d d' : RmnetFragDescriptor} {offset dlen : ℕ} {c c' : Bool}
    (h : segmentMeta coal d offset dlen c = some (d', c')) : SameShape d d' := by
  unfold segmentMeta at h
  split at h
  · obtain ⟨th, -, hth⟩ := Option.map_eq_some_iff.mp h
    split at hth
    · obtain ⟨rfl, -⟩ := Prod.mk.inj hth
      exact ⟨rfl, rfl, rfl, rfl⟩
    · obtain ⟨rfl, -⟩ := Prod.mk.inj hth
      exact ⟨rfl, rfl, rfl, rfl⟩
  · split at h
    · obtain ⟨uh, -, huh⟩ := Option.map_eq_some_iff.mp h
      obtain ⟨rfl, -⟩ := Prod.mk.inj huh
      exact ⟨rfl, rfl, rfl, rfl⟩
    · obtain ⟨rfl, -⟩ := Prod.mk.inj (Option.some.inj h)
      exact ⟨rfl, rfl, rfl, rfl⟩

theorem segmentIpId_shape {coal d d' : RmnetFragDescriptor} (h : segmentIpId coal d = some d') :
    SameShape d d' := by
  unfold segmentIpId at h
  split at h
  · obtain ⟨iph, -, rfl⟩ := Option.map_eq_some_iff.mp h
    exact ⟨rfl, rfl, rfl, rfl⟩
  · cases h
    exact ⟨rfl, rfl, rfl, rfl⟩

/-- The copied headers of a descriptor are not longer than the descriptor. -/
def RmnetFragDescriptor.HeadersFit (desc : RmnetFragDescriptor) : Prop :=
  u16 (desc.ipLen + desc.transLen) ≤ desc.len

/-- The account inside the segmentation loop: the coalesced descriptor and the new ones are held. -/
structure SegPool (a : ℕ) (held leaked : List ℕ) (good : Prop) (st : SegState) : Prop where
  addr : st.coalDesc.addr = a
  pool : Pool st.port (a :: (st.list.map RmnetFragDescriptor.addr ++ held)) leaked good
  sized : st.coalDesc.Sized
  fit : ∀ d ∈ st.list, d.HeadersFit

/-- The new descriptor joins the list. -/
theorem SegPool.append {a : ℕ} {st st' : SegState} {d : RmnetFragDescriptor} (h : SegPool a held leaked good st)
    (hpool : Pool st'.port (d.addr :: a :: (st.list.map RmnetFragDescriptor.addr ++ held)) leaked good)
    (haddr : st'.coalDesc.addr = st.coalDesc.addr) (hsized : st'.coalDesc.Sized) (hlist : st'.list = st.list ++ [d])
    (hfit : d.HeadersFit) : SegPool a held leaked good st' := by
  refine ⟨haddr.trans h.addr, ?_, hsized, ?_⟩
  · refine hpool.perm ?_
    rw [hlist, List.map_append, List.map_singleton, List.append_assoc, List.singleton_append]
    refine (List.Perm.swap _ _ _).trans ((List.Perm.cons _ ?_))
    exact List.perm_middle.symm
  · intro d' hd'
    rw [hlist] at hd'
    rcases List.mem_append.mp hd' with hd' | hd'
    · exact h.fit d' hd'
    · rw [List.mem_singleton.mp hd']
      exact hfit

/-- **`__rmnet_frag_segment_data`**: a new descriptor joins the list or goes back to the pool. -/
theorem SegPool.segmentData {a : ℕ} {st : SegState} (h : SegPool a held leaked good st) (i : ℕ) (c : Bool) :
    SegPool a held leaked good (rmnetFragSegmentData i c st) := by
  unfold rmnetFragSegmentData
  cases hget : rmnetGetFragDescriptor st.port with
  | mk port₁ r =>
    cases r with
    | none => exact ⟨h.addr, (h.pool.get_none hget).1, h.sized, h.fit⟩
    | some new =>
      obtain ⟨hpool, -, -⟩ := h.pool.get hget
      -- whatever fails from here on recycles the new descriptor
      have hback : ∀ {port₂ : RmnetPort} {d : RmnetFragDescriptor}, port₁.SamePool port₂ →
          d.addr = new.addr → SegPool a held leaked good
            { st with port := (rmnetRecycleFragDescriptor port₂ d).1 } := by
        intro port₂ d hsame haddr
        refine ⟨h.addr, Pool.recycle ?_, h.sized, h.fit⟩
        rw [haddr]
        exact hpool.of_samePool hsame
      simp only
      generalize u32 (st.coalDesc.gsoSize * st.coalDesc.gsoSegs) = dlen
      obtain ⟨hs₂, ⟨frags₂, n₂, hd₂⟩, hlen₂⟩ := addFragsFrom_any port₁
        { st.coalDesc with addr := new.addr, frags := [], len := 0 } st.coalDesc 0
        (st.coalDesc.ipLen + st.coalDesc.transLen)
      cases hr₂ : rmnetFragDescriptorAddFragsFrom port₁
          { st.coalDesc with addr := new.addr, frags := [], len := 0 } st.coalDesc 0
          (st.coalDesc.ipLen + st.coalDesc.transLen) with
      | mk port₂ r₂ =>
        obtain ⟨d₂, ok₂⟩ := r₂
        rw [hr₂] at hs₂ hd₂ hlen₂
        simp only at hs₂ hd₂ hlen₂
        cases ok₂ with
        | false => exact hback hs₂ (by rw [hd₂])
        | true =>
          simp only
          obtain ⟨hs₃, ⟨frags₃, n₃, hd₃⟩, hlen₃⟩ := addFragsFrom_any port₂ d₂ st.coalDesc
            (st.coalDesc.ipLen + st.coalDesc.transLen + st.coalDesc.dataOffset) dlen
          cases hr₃ : rmnetFragDescriptorAddFragsFrom port₂ d₂ st.coalDesc
              (st.coalDesc.ipLen + st.coalDesc.transLen + st.coalDesc.dataOffset) dlen with
          | mk port₃ r₃ =>
            obtain ⟨d₃, ok₃⟩ := r₃
            rw [hr₃] at hs₃ hd₃ hlen₃
            simp only at hs₃ hd₃ hlen₃
            have haddr₃ : d₃.addr = new.addr := by rw [hd₃, hd₂]
            cases ok₃ with
            | false => exact hback (hs₂.trans hs₃) haddr₃
            | true =>
              simp only
              cases hmeta : segmentMeta st.coalDesc d₃
                  (st.coalDesc.ipLen + st.coalDesc.transLen + st.coalDesc.dataOffset) dlen c with
              | none => exact hback (hs₂.trans hs₃) haddr₃
              | some r₄ =>
                obtain ⟨d₄, c'⟩ := r₄
                have hsh₄ := segmentMeta_shape hmeta
                simp only
                cases hid : segmentIpId st.coalDesc d₄ with
                | none => exact hback (hs₂.trans hs₃) (hsh₄.addr.trans haddr₃)
                | some d₅ =>
                  have hsh₅ := segmentIpId_shape hid
                  have haddr₅ : d₅.addr = new.addr := hsh₅.addr.trans (hsh₄.addr.trans haddr₃)
                  simp only
                  have hpool₃ := (hpool.of_samePool (hs₂.trans hs₃)).of_samePool
                    (samePool_bump port₃ st.coalDesc.dev .coalReconstruct 1)
                  rw [← haddr₅] at hpool₃
                  refine SegPool.append (d := { d₅ with csumValid := c' }) h hpool₃ rfl
                    ⟨h.sized.len_eq, h.sized.len_lt⟩ rfl ?_
                  show u16 (d₅.ipLen + d₅.transLen) ≤ d₅.len
                  obtain ⟨hin₂, hlen₂⟩ := hlen₂ rfl h.sized
                  obtain ⟨hin₃, hlen₃⟩ := hlen₃ rfl h.sized
                  have hlt := h.sized.len_lt
                  have hl₂ := hlen₂ (by omega)
                  have hl₃ := hlen₃ (by omega)
                  have hip : d₅.ipLen = st.coalDesc.ipLen := by
                    rw [hsh₅.ipLen, hsh₄.ipLen, hd₃, hd₂]
                  have htr : d₅.transLen = st.coalDesc.transLen := by
                    rw [hsh₅.transLen, hsh₄.transLen, hd₃, hd₂]
                  rw [hip, htr, hsh₅.len, hsh₄.len, hl₃, hl₂]
                  exact (Nat.mod_le _ _).trans (by omega)

theorem SegPool.keeps (a : ℕ) (held leaked : List ℕ) (good : Prop) :
    fragSegOps.Keeps (SegPool a held leaked good) where
  setSize _ h := ⟨h.addr, h.pool, ⟨h.sized.len_eq, h.sized.len_lt⟩, h.fit⟩
  setSegs _ h := ⟨h.addr, h.pool, ⟨h.sized.len_eq, h.sized.len_lt⟩, h.fit⟩
  csumErr h := ⟨h.addr, h.pool.of_samePool (samePool_bump _ _ _ _), h.sized, h.fit⟩
  emit i c h := h.segmentData i c

/-! ### Coalesced frames -/

/-- The descriptor without the first bytes of its data. -/
def RmnetFragDescriptor.pulled (desc : RmnetFragDescriptor) (size : ℕ) : RmnetFragDescriptor :=
  { desc with
    frags := (pullFrags desc.frags size desc.len).1
    len := (pullFrags desc.frags size desc.len).2 }

theorem rmnetFragPull_pulled (port : RmnetPort) {desc : RmnetFragDescriptor} (hs : desc.Sized) {size : ℕ}
    (h : size < desc.len) :
    rmnetFragPull port desc size = (port, desc.pulled size, true) ∧ (desc.pulled size).Sized ∧
      (desc.pulled size).len = desc.len - size := by
  obtain ⟨frags, hpull, hbytes, -⟩ := rmnetFragPull_eq port hs h
  have hform : rmnetFragPull port desc size
      = (port, desc.pulled size, (rmnetFragDataPtr (desc.pulled size)).isSome) := by
    unfold rmnetFragPull
    rw [if_neg (by omega)]
    rfl
  obtain ⟨-, hrest⟩ := Prod.mk.inj (hform.symm.trans hpull)
  obtain ⟨hdesc, hptr⟩ := Prod.mk.inj hrest
  rw [hform, hptr]
  refine ⟨rfl, ?_, ?_⟩
  · rw [hdesc]
    exact sized_of_drop hs hbytes
  · rw [hdesc]

/-- Segmentation passes the frame on whole, although its headers are longer than it is. -/
def shortWhole (coalHdr : V5CoalHeader) (gro : Bool) (m : CoalMeta) (len : ℕ) : Bool :=
  ((rmnetMapV5CsumBuggy coalHdr && !m.zeroCsum) ||
    (gro && m.plain && coalHdr.numNlos = 1 && coalHdr.csumValid)) && decide (len < u16 m.hlen)

/-- `shortWhole` for the frame in a descriptor. -/
def passesOnShort (dev : NetDevice) (desc : RmnetFragDescriptor) : Bool :=
  let coalHdr := V5CoalHeader.parse (copyFrags desc.frags mapHeaderSize v5CoalHeaderSize)
  let rest := desc.pulled (mapHeaderSize + v5CoalHeaderSize)
  match coalMetaOf rest.version rest.bytes with
  | none => false
  | some m => shortWhole coalHdr dev.groHw m rest.len

/-- What segmentation does with the account of the coalesced frame at `a`. -/
inductive SegOutcome (a : ℕ) (alloc : ℕ → Bool) (held leaked : List ℕ) (good empty : Prop) (short : Bool)
    (seg : SegState) : Prop
  /-- the frame ended with its headers, and was recycled -/
  | emptied (hempty : empty) (hlist : seg.list = []) (haddr : seg.coalDesc.addr = a)
      (hfree : a ∈ seg.port.freeList) (pool : Pool seg.port held leaked good)
  /-- the frame was dropped or cut up -/
  | segmented (pool : SegPool a held leaked good seg)
  /-- the frame was passed on -/
  | passedOn (hlist : seg.list = [seg.coalDesc]) (haddr : seg.coalDesc.addr = a)
      (pool : Pool seg.port (a :: held) leaked good) (halloc : seg.port.alloc = alloc)
      (hshort : seg.coalDesc.HeadersFit ∨ short = true)

theorem SegOutcome.mono {a : ℕ} {alloc : ℕ → Bool} {empty empty' : Prop} {short : Bool} {seg : SegState}
    (h : SegOutcome a alloc held leaked good empty short seg) (he : empty → empty') :
    SegOutcome a alloc held leaked good empty' short seg := by
  cases h with
  | emptied hempty hlist haddr hfree pool => exact .emptied (he hempty) hlist haddr hfree pool
  | segmented pool => exact .segmented pool
  | passedOn hlist haddr pool halloc hshort => exact .passedOn hlist haddr pool halloc hshort

theorem samePool_stats (port : RmnetPort) (stats : ℕ → PrivStat → ℕ) :
    port.SamePool { port with stats := stats } := ⟨rfl, rfl, rfl⟩

/-- The end of segmentation, with the headers measured as `m`. -/
theorem Pool.segmentMeasured {desc : RmnetFragDescriptor} (h : Pool port (desc.addr :: held) leaked good)
    (hs : desc.Sized) (coalHdr : V5CoalHeader) (gro : Bool) {m : CoalMeta} (hip : desc.ipLen = m.ipLen)
    (htr : desc.transLen = m.transLen) (mask : ℕ) :
    SegOutcome desc.addr port.alloc held leaked good False (shortWhole coalHdr gro m desc.len)
      (Rmnet.segmentMeasured port desc coalHdr mask (gro && m.plain) m.zeroCsum []) := by
  have hfit : ∀ d : RmnetFragDescriptor, d.ipLen = desc.ipLen → d.transLen = desc.transLen →
      d.len = desc.len → d.HeadersFit ∨ desc.len < u16 m.hlen := by
    intro d h₁ h₂ h₃
    unfold RmnetFragDescriptor.HeadersFit CoalMeta.hlen
    rw [h₁, h₂, h₃, hip, htr]
    omega
  unfold Rmnet.segmentMeasured shortWhole
  simp only
  split
  · rename_i hbuggy
    refine .passedOn rfl (by split <;> rfl) h rfl ?_
    rw [hbuggy, Bool.true_or, Bool.true_and, decide_eq_true_eq]
    split
    · exact hfit _ rfl rfl rfl
    · exact hfit _ rfl rfl rfl
  · split
    · rename_i hfast
      refine .passedOn rfl rfl h rfl ?_
      rw [hfast, Bool.or_true, Bool.true_and, decide_eq_true_eq]
      exact hfit _ rfl rfl rfl
    · have hinit : SegPool desc.addr held leaked good ⟨port, { desc with hdrsValid := true }, []⟩ :=
        ⟨rfl, h, ⟨hs.len_eq, hs.len_lt⟩, by simp⟩
      exact .segmented ((SegPool.keeps desc.addr held leaked good).run _ hinit)

/-- **`rmnet_frag_segment_coal_data`** keeps the account. -/
theorem Pool.segmentCoalData {desc : RmnetFragDescriptor} (h : Pool port (desc.addr :: held) leaked good)
    (hs : desc.Sized) {dev : NetDevice} (hdev : desc.dev = some dev) (mask : ℕ) :
    SegOutcome desc.addr port.alloc held leaked good (desc.len ≤ mapHeaderSize + v5CoalHeaderSize)
      (passesOnShort dev desc) (rmnetFragSegmentCoalData port desc mask []) := by
  unfold rmnetFragSegmentCoalData
  cases hcopy : rmnetFragCopyData desc mapHeaderSize v5CoalHeaderSize with
  | none => exact .segmented ⟨rfl, h, hs, by simp⟩
  | some hdr =>
    have hhdr : hdr = copyFrags desc.frags mapHeaderSize v5CoalHeaderSize := by
      unfold rmnetFragCopyData at hcopy
      split at hcopy
      · cases hcopy
      · exact (Option.some.inj hcopy).symm
    simp only
    by_cases hlen : desc.len ≤ mapHeaderSize + v5CoalHeaderSize
    · rw [rmnetFragPull_of_le hlen]
      exact .emptied hlen rfl rfl (recycled_free port desc) h.recycle
    · obtain ⟨hpull, hsized, -⟩ := rmnetFragPull_pulled port hs (Nat.not_le.mp hlen)
      rw [hpull]
      simp only
      unfold passesOnShort
      rw [← hhdr]
      simp only
      generalize hrest : desc.pulled (mapHeaderSize + v5CoalHeaderSize) = rest at hsized ⊢
      have haddr : rest.addr = desc.addr := by rw [← hrest]; rfl
      have hgro : (desc.dev.map NetDevice.groHw).getD false = dev.groHw := by rw [hdev]; rfl
      rw [hgro]
      obtain ⟨⟨stats₁, hport₁⟩, ⟨p₁, l₁, t₁, hdesc₁⟩, hmeas₁⟩ :=
        segmentIpHeader_measured port hsized dev.groHw
      cases hip : segmentIpHeader port rest dev.groHw with
      | mk port₁ r₁ =>
        obtain ⟨desc₁, g⟩ := r₁
        rw [hip] at hport₁ hdesc₁ hmeas₁
        simp only at hport₁ hdesc₁ hmeas₁
        have haddr₁ : desc₁.addr = desc.addr := by rw [hdesc₁]; exact haddr
        have hsized₁ : desc₁.Sized := by rw [hdesc₁]; exact ⟨hsized.len_eq, hsized.len_lt⟩
        have hpool₁ : Pool port₁ (desc.addr :: held) leaked good := by
          rw [hport₁]; exact h.of_samePool (samePool_stats port stats₁)
        cases g with
        | none => exact .segmented ⟨haddr₁, hpool₁, hsized₁, by simp⟩
        | some g =>
          simp only
          obtain ⟨plain, hmeta, hg⟩ := hmeas₁ g rfl
          obtain ⟨⟨stats₂, hport₂⟩, ⟨l₂, hdesc₂⟩, hmeas₂⟩ := segmentTransHeader_measured port₁ hsized₁
          cases htr : segmentTransHeader port₁ desc₁ with
          | mk port₂ r₂ =>
            obtain ⟨desc₂, z⟩ := r₂
            rw [htr] at hport₂ hdesc₂ hmeas₂
            simp only at hport₂ hdesc₂ hmeas₂
            have haddr₂ : desc₂.addr = desc.addr := by rw [hdesc₂]; exact haddr₁
            have hsized₂ : desc₂.Sized := by rw [hdesc₂]; exact ⟨hsized₁.len_eq, hsized₁.len_lt⟩
            have hpool₂ : Pool port₂ (desc.addr :: held) leaked good := by
              rw [hport₂]; exact hpool₁.of_samePool (samePool_stats port₁ stats₂)
            cases z with
            | none => exact .segmented ⟨haddr₂, hpool₂, hsized₂, by simp⟩
            | some z =>
              have hm := hmeas₂ z rfl rest.version plain
                (by rw [show desc₁.bytes = rest.bytes by rw [hdesc₁]; rfl]; exact hmeta)
              rw [show desc₁.bytes = rest.bytes by rw [hdesc₁]; rfl] at hm
              have hlen₂ : desc₂.len = rest.len := by rw [hdesc₂, hdesc₁]
              have halloc₂ : port₂.alloc = port.alloc := by rw [hport₂, hport₁]
              have hend := Pool.segmentMeasured (haddr₂.symm ▸ hpool₂) hsized₂ (V5CoalHeader.parse hdr)
                dev.groHw (m := ⟨desc₁.ipProto, desc₁.ipLen, desc₁.transProto, desc₂.transLen, plain, z⟩)
                (by rw [hdesc₂]) rfl mask
              rw [haddr₂, halloc₂, hlen₂] at hend
              rw [hm, hg]
              exact hend.mono False.elim

/-! ### Delivery -/

theorem addRxFrags_samePool (fs : List SkbFrag) :
    ∀ (port : RmnetPort) (head : List SkbFrag) (chain : List (List SkbFrag)),
      port.SamePool (addRxFrags port head chain fs).1 := by
  induction fs with
  | nil =>
    intro port head chain
    exact .rfl
  | cons f fs ih =>
    -- a further buffer is one allocation
    have hfail : ∀ {port p : RmnetPort}, port.kalloc = (false, p) → port.SamePool p := by
      intro port p hk
      obtain ⟨-, rfl⟩ := Prod.mk.inj hk
      exact samePool_kalloc port
    have hmore : ∀ {port p : RmnetPort} (head : List SkbFrag) (chain : List (List SkbFrag)),
        port.kalloc = (true, p) → port.SamePool (addRxFrags p head chain fs).1 := by
      intro port p head chain hk
      obtain ⟨-, rfl⟩ := Prod.mk.inj hk
      exact (samePool_kalloc port).trans (ih _ _ _)
    intro port head chain
    rw [addRxFrags]
    split
    · split
      · exact ih _ _ _
      · split
        · next p hk => exact hfail hk
        · next p hk => exact hmore _ _ hk
    · split
      · exact ih _ _ _
      · split
        · next p hk => exact hfail hk
        · next p hk => exact hmore _ _ hk

/-- **`rmnet_frag_deliver`** takes over a descriptor and recycles it, once unless the headers to copy are
longer than the descriptor. -/
theorem Pool.deliver {d : RmnetFragDescriptor} (h : Pool port (d.addr :: held) leaked good)
    (hgood : good' → good ∧ (d.hdrsValid = true → port.alloc 0 = true → d.HeadersFit)) :
    Pool (rmnetFragDeliver port d) held leaked good' := by
  -- the buffer is sent up and the descriptor recycled
  have hsend : ∀ {p : RmnetPort} {d' : RmnetFragDescriptor} {skbs : List SkBuff}, port.SamePool p →
      d'.addr = d.addr →
      Pool (rmnetRecycleFragDescriptor { p with delivered := skbs } d').1 held leaked good' := by
    intro p d' skbs hp haddr
    have hp' : p.SamePool { p with delivered := skbs } := ⟨rfl, rfl, rfl⟩
    refine Pool.recycle ?_
    rw [haddr]
    exact (h.of_samePool (hp.trans hp')).mono fun hg => (hgood hg).1
  have hdrop : ∀ {p : RmnetPort} {d' : RmnetFragDescriptor}, port.SamePool p → d'.addr = d.addr →
      Pool (rmnetRecycleFragDescriptor p d').1 held leaked good' :=
    fun hp haddr => hsend hp haddr
  have hk := samePool_kalloc port
  have hfrags : ∀ fs, port.SamePool (addRxFrags port.kalloc.2 [] [] fs).1 :=
    fun fs => hk.trans (addRxFrags_samePool fs _ [] [])
  unfold rmnetFragDeliver rmnetAllocSkb
  rw [show port.kalloc = (port.alloc 0, port.kalloc.2) from rfl]
  cases halloc : port.alloc 0 with
  | false => exact hdrop hk rfl
  | true =>
    simp only
    by_cases hv : d.hdrsValid = true
    · rw [if_pos hv]
      split
      · rename_i p d' hall
        split at hall
        · cases hall
        · rename_i hne
          by_cases hlen : d.len ≤ u16 (d.ipLen + d.transLen)
          · rw [rmnetFragPull_of_le hlen] at hall
            obtain ⟨rfl, hrest⟩ := Prod.mk.inj hall
            obtain ⟨rfl, -⟩ := Prod.mk.inj hrest
            -- the buffer's headers do not fit, and the pull has recycled already
            refine ((((h.of_samePool hk).recycle).recycle_again (recycled_free _ d)).mono ?_)
            intro hg
            have hle := (hgood hg).2 hv halloc
            unfold RmnetFragDescriptor.HeadersFit at hle
            exact hne (Nat.le_antisymm hle hlen)
          · obtain ⟨ok, hpull⟩ := rmnetFragPull_of_lt (Nat.not_le.mp hlen)
            rw [hpull] at hall
            cases ok with
            | false =>
              obtain ⟨rfl, hrest⟩ := Prod.mk.inj hall
              obtain ⟨rfl, -⟩ := Prod.mk.inj hrest
              exact hdrop hk rfl
            | true => cases hall
      · rename_i p d' skb hall
        split at hall
        · obtain ⟨rfl, hrest⟩ := Prod.mk.inj hall
          obtain ⟨rfl, -⟩ := Prod.mk.inj hrest
          exact hsend hk rfl
        · by_cases hlen : d.len ≤ u16 (d.ipLen + d.transLen)
          · rw [rmnetFragPull_of_le hlen] at hall
            cases hall
          · obtain ⟨ok, hpull⟩ := rmnetFragPull_of_lt (Nat.not_le.mp hlen)
            rw [hpull] at hall
            cases ok with
            | false => cases hall
            | true =>
              obtain ⟨rfl, hrest⟩ := Prod.mk.inj hall
              obtain ⟨rfl, -⟩ := Prod.mk.inj hrest
              exact hsend (hfrags _) rfl
    · rw [if_neg hv]
      exact hsend (hfrags _) rfl

/-- Delivering segments whose headers fit. -/
theorem Pool.deliver_all (segs : List RmnetFragDescriptor) :
    ∀ {port : RmnetPort}, Pool port (segs.map RmnetFragDescriptor.addr ++ held) leaked good →
      (∀ d ∈ segs, d.HeadersFit) → Pool (segs.foldl rmnetFragDeliver port) held leaked good := by
  induction segs with
  | nil =>
    intro port h _
    exact h
  | cons d segs ih =>
    intro port h hfit
    refine ih ?_ fun d' hd' => hfit d' (List.mem_cons_of_mem _ hd')
    rw [List.map_cons, List.cons_append] at h
    exact h.deliver fun hg => ⟨hg, fun _ _ => hfit d List.mem_cons_self⟩

end Account

end Rmnet
