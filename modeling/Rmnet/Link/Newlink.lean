import Rmnet.Frag.Descriptor
import Rmnet.Lib.Alloc
import Rmnet.Link.Tables

/-!
# What a failed link creation leaves behind

`rmnet_newlink` again, with the objects it allocates: the endpoint, the port, the descriptor pool with its
descriptors, the statistics and GRO cells of the rmnet device and its `qos_info`.  Each allocation may fail;
dereferencing a pointer that is NULL is `none`.  Seen without the objects, this is the `rmnet_newlink` of the
link requests (`newlinkMem_link`).

The undo code has two holes.  When a descriptor of the pool cannot be allocated,
`rmnet_register_real_device` takes back the pool and leaves the receive handler, the port and the reference
on the device (`newlink_leaks`).  And when the rmnet device cannot be created on a registered device that has
no rmnet device, as a bridge slave, that device is taken out of rmnet.  `newlink_clean_iff` says that these
are all.
-/

namespace Rmnet

open Word Alloc

/-! ### The code with its objects -/

/-- `struct rmnet_frag_descriptor_pool`. -/
structure DescriptorPool where
  addr : ℕ
  freeList : List ℕ
  poolSize : ℕ

/-- A port with its own object and its pool. -/
structure PortMem where
  link : LinkPort
  addr : ℕ
  fragDescPool : Option DescriptorPool

/-- The real devices and the rmnet devices, the live objects, and the references held on the real devices. -/
structure LinkMem where
  ports : ℕ → Option PortMem
  devs : ℕ → Option RmnetPriv
  cfg : DfcConfig
  heap : Heap
  holds : ℕ → ℕ

/-- The link state without the objects. -/
def LinkMem.link (s : LinkMem) : LinkState :=
  { ports := fun r => (s.ports r).map PortMem.link, devs := s.devs, cfg := s.cfg }

/-- What the kernel answers: `netdev_rx_handler_register`, and the errors of `register_netdevice` before and
after it calls `ndo_init`. -/
structure NetdevEnv where
  rxHandlerRegister : Bool := true
  beforeInit : ℤ := 0
  afterInit : ℤ := 0
  numTxQueues : ℕ := 31

/-- The loop of `rmnet_descriptor_init` over the descriptors still to be allocated. -/
def descriptorFill : ℕ → DescriptorPool → Heap → Heap × DescriptorPool × ℤ
  | 0, pool, h => (h, pool, 0)
  | n + 1, pool, h =>
      match alloc h with
      | (h, none) => (h, pool, -enomem)
      | (h, some a) =>
          descriptorFill n
            { pool with freeList := pool.freeList ++ [a], poolSize := pool.poolSize + 1 } h

/-- `rmnet_descriptor_init`: the pool of the port and the error. -/
def rmnetDescriptorInitMem (h : Heap) : Heap × Option DescriptorPool × ℤ :=
  match alloc h with
  | (h, none) => (h, none, -enomem)
  | (h, some a) =>
      let (h, pool, rc) := descriptorFill fragDescriptorPoolSize { addr := a, freeList := [], poolSize := 0 } h
      (h, some pool, rc)

/-- `rmnet_descriptor_deinit`, which reads the free list of the pool without a check. -/
def rmnetDescriptorDeinitMem (pool : Option DescriptorPool) (h : Heap) : Option Heap :=
  pool.map fun pool => free (pool.freeList.foldl free h) pool.addr

/-- `rmnet_unregister_real_device`.  The port is NULL for a device that is not registered. -/
def rmnetUnregisterRealDeviceMem (s : LinkMem) (realDev : ℕ) : Option (LinkMem × ℤ) :=
  match s.ports realDev with
  | none => none
  | some port =>
      if port.link.nrRmnetDevs ≠ 0 then some (s, -einval)
      else
        (rmnetDescriptorDeinitMem port.fragDescPool s.heap).map fun h =>
          ({ s with
             ports := Function.update s.ports realDev none
             heap := free h port.addr
             holds := Function.update s.holds realDev (s.holds realDev - 1) }, 0)

/-- `rmnet_register_real_device`. -/
def rmnetRegisterRealDeviceMem (env : NetdevEnv) (s : LinkMem) (realDev : ℕ) : Option (LinkMem × ℤ) :=
  if (s.ports realDev).isSome then some (s, 0)
  else
    match alloc s.heap with
    | (h, none) => some ({ s with heap := h }, -enomem)
    | (h, some a) =>
        if !env.rxHandlerRegister then some ({ s with heap := free h a }, -ebusy)
        else
          let holds := Function.update s.holds realDev (s.holds realDev + 1)
          let (h, pool, rc) := rmnetDescriptorInitMem h
          let s := { s with
            ports := Function.update s.ports realDev
              (some { link := newPort, addr := a, fragDescPool := pool })
            heap := h
            holds := holds }
          -- the pool is taken back, the receive handler, the port and the reference are not
          if rc ≠ 0 then (rmnetDescriptorDeinitMem pool h).map fun h => ({ s with heap := h }, rc)
          else some (s, 0)

/-- `rmnet_vnd_init`: the statistics and the GRO cells of the device. -/
def rmnetVndInit (h : Heap) : Heap × Option (ℕ × ℕ) :=
  match alloc h with
  | (h, none) => (h, none)
  | (h, some pcpuStats) =>
      match alloc h with
      | (h, none) => (free h pcpuStats, none)
      | (h, some groCells) => (h, some (pcpuStats, groCells))

/-- `register_netdevice`, which undoes `ndo_init` by `rmnet_vnd_uninit` when it fails later. -/
def registerNetdevice (env : NetdevEnv) (h : Heap) : Heap × ℤ :=
  if env.beforeInit ≠ 0 then (h, env.beforeInit)
  else
    match rmnetVndInit h with
    | (h, none) => (h, -enomem)
    | (h, some (pcpuStats, groCells)) =>
        if env.afterInit ≠ 0 then (free (free h groCells) pcpuStats, env.afterInit) else (h, 0)

/-- `rmnet_vnd_newlink`. -/
def rmnetVndNewlinkMem (env : NetdevEnv) (id : ℕ) (dev realDev : ℕ) (port : LinkPort) (ep : RmnetEndpoint)
    (h : Heap) : Heap × (LinkPort × RmnetEndpoint × Option RmnetPriv) × ℤ :=
  if ep.egressDev.isSome then (h, (port, ep, none), -einval)
  else if (rmnetGetEndpoint port id).isSome then (h, (port, ep, none), -ebusy)
  else
    let (h, rc) := registerNetdevice env h
    if rc ≠ 0 then (h, (port, ep, none), rc)
    else
      let (h, qos) := alloc h
      (h, ({ port with nrRmnetDevs := u8 (port.nrRmnetDevs + 1) }, { muxId := id, egressDev := some dev },
        some { realDev := realDev, muxId := id,
               qosInfo := if qos.isSome then some (qmiRmnetQosInit id env.numTxQueues fun _ => false)
                 else none }), 0)

/-- `rmnet_newlink` once the real device is registered. -/
def newlinkCreate (env : NetdevEnv) (s : LinkMem) (dev realDev muxId ep : ℕ) (data : LinkAttrs) :
    Option (LinkMem × ℤ) :=
  match s.ports realDev with
  | none => none
  | some port =>
      match rmnetVndNewlinkMem env (u8 muxId) dev realDev port.link {} s.heap with
      | (h, (link, endpoint, priv), 0) =>
          let link := { link with rmnetMode := rmnetEpmodeVnd }
          let link := ((link.addHead muxId endpoint).setFlags data.flags).setAggParams data.ulAggParams
          some ({ s with
            ports := Function.update s.ports realDev (some { port with link := link })
            devs := Function.update s.devs dev priv
            heap := h }, 0)
      | (h, (_, _, _), err) =>
          (rmnetUnregisterRealDeviceMem { s with heap := h } realDev).map fun (s, _) =>
            ({ s with heap := free s.heap ep }, err)

/-- `rmnet_newlink` for the unregistered device `dev`. -/
def rmnetNewlinkMem (env : NetdevEnv) (s : LinkMem) (dev : ℕ) (data : LinkAttrs) : Option (LinkMem × ℤ) :=
  match data.link, data.muxId with
  | none, _ => some (s, -enodev)
  | some _, none => some (s, -einval)
  | some realDev, some muxId =>
      match alloc s.heap with
      | (h, none) => some ({ s with heap := h }, -enomem)
      | (h, some ep) =>
          (rmnetRegisterRealDeviceMem env { s with heap := h } realDev).bind fun (s, err) =>
            if err ≠ 0 then some ({ s with heap := free s.heap ep }, err)
            else newlinkCreate env s dev realDev muxId ep data

/-! ### The property and the condition -/

/-- Nothing has changed: the registrations and the ports with their pools, the rmnet devices, the set of live
objects and the references. -/
structure SameLink (s s' : LinkMem) : Prop where
  ports : s'.ports = s.ports
  devs : s'.devs = s.devs
  cfg : s'.cfg = s.cfg
  live : s'.heap.live = s.heap.live
  holds : s'.holds = s.holds

/-- Once the endpoint is allocated: a registered device has an rmnet device; for one that is not registered, no
descriptor of the pool fails, unless the port or the receive handler does. -/
def NewlinkFailsClean (env : NetdevEnv) (s : LinkMem) (data : LinkAttrs) : Prop :=
  ∀ r m, data.link = some r → data.muxId = some m → s.heap.outcome 0 = true →
    (∀ port, s.ports r = some port → port.link.nrRmnetDevs ≠ 0) ∧
    (s.ports r = none → s.heap.outcome 1 = true → env.rxHandlerRegister = true →
      ∀ i < fragDescriptorPoolSize, s.heap.outcome (3 + i) = true)

/-! ### The pool -/

/-- A pool in the making: it and its descriptors are different objects, none of which is in `s`. -/
structure Filled (l s : Finset ℕ) (pool : DescriptorPool) (h : Heap) : Prop where
  nodup : (pool.addr :: pool.freeList).Nodup
  fresh : ∀ a ∈ pool.addr :: pool.freeList, a ∉ s
  owns : Owns l (s ∪ (pool.addr :: pool.freeList).toFinset) h

section

variable {l s : Finset ℕ} {pool : DescriptorPool} {h : Heap}

theorem Filled.push (hf : Filled l s pool h) {a : ℕ} {h' : Heap}
    (hnew : a ∉ s ∪ (pool.addr :: pool.freeList).toFinset)
    (hown : Owns l (insert a (s ∪ (pool.addr :: pool.freeList).toFinset)) h') (n : ℕ) :
    Filled l s { pool with freeList := pool.freeList ++ [a], poolSize := n } h' := by
  rw [Finset.mem_union, not_or, List.mem_toFinset] at hnew
  have happ : pool.addr :: (pool.freeList ++ [a]) = (pool.addr :: pool.freeList) ++ [a] := rfl
  refine ⟨?_, ?_, ?_⟩
  · show (pool.addr :: (pool.freeList ++ [a])).Nodup
    rw [happ]
    refine List.nodup_append.mpr ⟨hf.nodup, List.nodup_singleton a, ?_⟩
    intro b hb c hc hbc
    rw [List.mem_singleton.mp hc] at hbc
    exact hnew.2 (hbc ▸ hb)
  · show ∀ b ∈ pool.addr :: (pool.freeList ++ [a]), b ∉ s
    rw [happ]
    intro b hb
    rcases List.mem_append.mp hb with hb | hb
    · exact hf.fresh b hb
    · rw [List.mem_singleton.mp hb]
      exact hnew.1
  · show Owns l (s ∪ (pool.addr :: (pool.freeList ++ [a])).toFinset) h'
    have hset : s ∪ (pool.addr :: (pool.freeList ++ [a])).toFinset
        = insert a (s ∪ (pool.addr :: pool.freeList).toFinset) := by
      ext b
      simp only [Finset.mem_union, Finset.mem_insert, List.mem_toFinset, List.mem_cons, List.mem_append,
        List.not_mem_nil, or_false]
      tauto
    rw [hset]
    exact hown

/-- The loop ends with a pool in order, and without an error exactly when no allocation of it fails. -/
theorem Filled.fill : ∀ (n : ℕ) {pool : DescriptorPool} {h : Heap}, Filled l s pool h →
    ∃ h' pool' rc, descriptorFill n pool h = (h', pool', rc) ∧ Filled l s pool' h' ∧
      (rc = 0 ↔ ∀ i < n, h.outcome i = true) := by
  intro n
  induction n with
  | zero =>
    intro pool h hf
    exact ⟨h, pool, 0, rfl, hf, by simp⟩
  | succ n ih =>
    intro pool h hf
    cases h0 : h.outcome 0 with
    | false =>
      refine ⟨_, pool, -enomem, by rw [descriptorFill, alloc_fail h0], ⟨hf.nodup, hf.fresh, ?_⟩, ?_⟩
      · exact ⟨hf.owns.disjoint, hf.owns.live⟩
      · refine ⟨fun hrc => by simp [enomem] at hrc, fun hall => ?_⟩
        rw [hall 0 (Nat.succ_pos n)] at h0
        cases h0
    | true =>
      obtain ⟨a, h₁, halloc, hout, -, hown⟩ := alloc_success h0
      obtain ⟨hnew, hown⟩ := hown l _ hf.owns
      obtain ⟨h', pool', rc, heq, hf', hrc⟩ := ih (hf.push hnew hown (pool.poolSize + 1))
      refine ⟨h', pool', rc, by rw [descriptorFill, halloc]; exact heq, hf', hrc.trans ?_⟩
      rw [hout]
      constructor
      · intro hall i hi
        cases i with
        | zero => exact h0
        | succ i => exact hall i (Nat.lt_of_succ_lt_succ hi)
      · intro hall i hi
        exact hall (i + 1) (Nat.succ_lt_succ hi)

/-- `rmnet_descriptor_deinit` frees a pool in order, complete or not. -/
theorem Filled.deinit (hf : Filled l s pool h) :
    ∃ h', rmnetDescriptorDeinitMem (some pool) h = some h' ∧ Owns l s h' := by
  obtain ⟨hnot, hnd⟩ := List.nodup_cons.mp hf.nodup
  have hfreed := hf.owns.freeAll pool.freeList hnd fun a ha =>
    Finset.mem_union_right _ (List.mem_toFinset.mpr (List.mem_cons_of_mem _ ha))
  have hset : (s ∪ (pool.addr :: pool.freeList).toFinset) \ pool.freeList.toFinset = insert pool.addr s := by
    ext b
    simp only [Finset.mem_sdiff, Finset.mem_union, List.mem_toFinset, List.mem_cons, Finset.mem_insert]
    constructor
    · rintro ⟨hb | hb | hb, hout⟩
      · exact .inr hb
      · exact .inl hb
      · exact absurd hb hout
    · rintro (rfl | hb)
      · exact ⟨.inr (.inl rfl), hnot⟩
      · exact ⟨.inl hb, fun hmem => hf.fresh b (List.mem_cons_of_mem _ hmem) hb⟩
  rw [hset] at hfreed
  have hlast := hfreed.free (Finset.mem_insert_self pool.addr s)
  rw [Finset.erase_insert (hf.fresh pool.addr List.mem_cons_self)] at hlast
  exact ⟨_, rfl, hlast⟩

/-- `rmnet_descriptor_init`.  Without the pool there is an error and nothing to free; with it the pool is in
order. -/
theorem descriptorInit_cases (ho : Owns l s h) :
    (h.outcome 0 = false ∧ ∃ h', rmnetDescriptorInitMem h = (h', none, -enomem)) ∨
    (h.outcome 0 = true ∧ ∃ h' pool rc, rmnetDescriptorInitMem h = (h', some pool, rc) ∧ Filled l s pool h' ∧
      (rc = 0 ↔ ∀ i < fragDescriptorPoolSize, h.outcome (1 + i) = true)) := by
  cases h0 : h.outcome 0 with
  | false => exact .inl ⟨rfl, _, by rw [rmnetDescriptorInitMem, alloc_fail h0]⟩
  | true =>
    obtain ⟨a, h₁, halloc, hout, -, hown⟩ := alloc_success h0
    obtain ⟨hnew, hown⟩ := hown l s ho
    have hfilled : Filled l s { addr := a, freeList := [], poolSize := 0 } h₁ := by
      refine ⟨List.nodup_singleton a, ?_, ?_⟩
      · intro b hb
        rw [List.mem_singleton.mp hb]
        exact hnew
      · rw [List.toFinset_cons, List.toFinset_nil, insert_empty_eq, Finset.union_comm, ← Finset.insert_eq]
        exact hown
    obtain ⟨h', pool, rc, heq, hf, hrc⟩ := hfilled.fill fragDescriptorPoolSize
    refine .inr ⟨rfl, h', pool, rc, by rw [rmnetDescriptorInitMem, halloc]; simp only [heq], hf, ?_⟩
    rw [hrc, hout]
    simp only [Nat.add_comm 1]

/-! ### The rmnet device -/

/-- A failed `register_netdevice` keeps nothing. -/
theorem registerNetdevice_failed (env : NetdevEnv) {h' : Heap} {rc : ℤ} (ho : Owns l s h)
    (heq : registerNetdevice env h = (h', rc)) (hrc : rc ≠ 0) : Owns l s h' := by
  unfold registerNetdevice at heq
  split at heq
  · cases heq
    exact ho
  · unfold rmnetVndInit at heq
    cases h0 : h.outcome 0 with
    | false =>
      rw [alloc_fail h0] at heq
      cases heq
      exact ⟨ho.disjoint, ho.live⟩
    | true =>
      obtain ⟨a, h₁, halloc, -, -, hown⟩ := alloc_success h0
      obtain ⟨hnewa, hown₁⟩ := hown l s ho
      rw [halloc] at heq
      cases h1 : h₁.outcome 0 with
      | false =>
        simp only [alloc_fail h1] at heq
        cases heq
        have hfree := (⟨hown₁.disjoint, hown₁.live⟩ : Owns l (insert a s)
          { live := h₁.live, outcome := fun n => h₁.outcome (n + 1) }).free (Finset.mem_insert_self a s)
        rwa [Finset.erase_insert hnewa] at hfree
      | true =>
        obtain ⟨b, h₂, halloc₂, -, -, hown⟩ := alloc_success h1
        obtain ⟨hnewb, hown₂⟩ := hown l _ hown₁
        simp only [halloc₂] at heq
        split at heq
        · cases heq
          have hfree := (hown₂.free (Finset.mem_insert_self b _))
          rw [Finset.erase_insert hnewb] at hfree
          have hfree' := hfree.free (Finset.mem_insert_self a s)
          rwa [Finset.erase_insert hnewa] at hfree'
        · cases heq
          exact absurd rfl hrc

/-- The two outcomes of `rmnet_vnd_newlink` for a fresh endpoint: it fails and keeps nothing, or there is no
error. -/
theorem vndNewlinkMem_cases (env : NetdevEnv) (id dev realDev : ℕ) (port : LinkPort) (h : Heap) :
    (∃ h' err, err ≠ 0 ∧ rmnetVndNewlinkMem env id dev realDev port {} h = (h', (port, {}, none), err) ∧
      ∀ l s, Owns l s h → Owns l s h') ∨
    ∃ h' x, rmnetVndNewlinkMem env id dev realDev port {} h = (h', x, 0) := by
  unfold rmnetVndNewlinkMem
  simp only [Option.isSome_none, Bool.false_eq_true, if_false]
  by_cases hep : (rmnetGetEndpoint port id).isSome = true
  · rw [if_pos hep]
    exact .inl ⟨h, -ebusy, by simp [ebusy], rfl, fun _ _ ho => ho⟩
  · rw [if_neg hep]
    rcases hreg : registerNetdevice env h with ⟨h₁, rc⟩
    by_cases hrc : rc ≠ 0
    · simp only [if_pos hrc]
      exact .inl ⟨h₁, rc, hrc, rfl, fun l s ho => registerNetdevice_failed env ho hreg hrc⟩
    · simp only [if_neg hrc]
      exact .inr ⟨_, _, rfl⟩

end

/-! ### A failed call -/

section

variable {env : NetdevEnv} {s s' : LinkMem} {dev r m ep : ℕ} {data : LinkAttrs} {err : ℤ} {port : PortMem}

/-- An error after the registration: the rmnet device has left nothing, and the undo code runs. -/
theorem newlinkCreate_failed (hport : s.ports r = some port)
    (hret : newlinkCreate env s dev r m ep data = some (s', err)) (herr : err ≠ 0) :
    ∃ h s₂ rc, (∀ l t, Owns l t s.heap → Owns l t h) ∧
      rmnetUnregisterRealDeviceMem { s with heap := h } r = some (s₂, rc) ∧
      s' = { s₂ with heap := free s₂.heap ep } := by
  unfold newlinkCreate at hret
  rw [hport] at hret
  simp only at hret
  rcases vndNewlinkMem_cases env (u8 m) dev r port.link s.heap with ⟨h, e, he, heq, hown⟩ | ⟨h, x, heq⟩
  · rw [heq] at hret
    split at hret
    · rename_i h0
      simp only [Prod.mk.injEq] at h0
      exact absurd h0.2.2 he
    · rename_i h0
      cases h0
      obtain ⟨⟨s₂, rc⟩, hunreg, hs'⟩ := Option.map_eq_some_iff.mp hret
      cases hs'
      exact ⟨h, s₂, rc, hown, hunreg, rfl⟩
  · rw [heq] at hret
    obtain ⟨link, endpoint, priv⟩ := x
    cases hret
    exact absurd rfl herr

/-- On a registered device the undo code leaves everything, or removes the device. -/
theorem newlink_registered_iff (hport : s.ports r = some port) {h : Heap}
    (hown : Owns s.heap.live {ep} h)
    (hret : newlinkCreate env { s with heap := h } dev r m ep data = some (s', err)) (herr : err ≠ 0) :
    SameLink s s' ↔ port.link.nrRmnetDevs ≠ 0 := by
  obtain ⟨h', s₂, rc, hkeep, hunreg, rfl⟩ := newlinkCreate_failed (s := { s with heap := h }) hport hret herr
  simp only [rmnetUnregisterRealDeviceMem, hport] at hunreg
  by_cases hnr : port.link.nrRmnetDevs ≠ 0
  · rw [if_pos hnr] at hunreg
    cases hunreg
    have hlast := (hkeep _ _ hown).free (Finset.mem_singleton_self ep)
    rw [Finset.erase_singleton] at hlast
    exact iff_of_true ⟨rfl, rfl, rfl, hlast.undone, rfl⟩ hnr
  · rw [if_neg hnr] at hunreg
    obtain ⟨h'', -, hs₂⟩ := Option.map_eq_some_iff.mp hunreg
    cases hs₂
    refine iff_of_false (fun hsame => ?_) hnr
    have hgone := congrFun hsame.ports r
    simp only [Function.update_self, hport] at hgone
    cases hgone

/-- What a registration can do: fail at the port or the receive handler and leave nothing, fail at a descriptor
and leave the port behind, or make the port, its pool and one reference. -/
theorem registerMem_cases (hnone : s.ports r = none) {l t : Finset ℕ} (hown : Owns l t s.heap)
    (hret : rmnetRegisterRealDeviceMem env s r = some (s', err)) :
    (err ≠ 0 ∧ ¬ (s.heap.outcome 0 = true ∧ env.rxHandlerRegister = true) ∧ s'.ports = s.ports ∧
      s'.devs = s.devs ∧ s'.cfg = s.cfg ∧ s'.holds = s.holds ∧ Owns l t s'.heap) ∨
    (err ≠ 0 ∧ (s.heap.outcome 0 = true ∧ env.rxHandlerRegister = true ∧
      ¬ ∀ i < fragDescriptorPoolSize, s.heap.outcome (2 + i) = true) ∧ s'.ports r ≠ none) ∨
    (err = 0 ∧ (∀ i < fragDescriptorPoolSize, s.heap.outcome (2 + i) = true) ∧ ∃ a pool h', a ∉ t ∧
      Filled l (insert a t) pool h' ∧
      s' = { s with
        ports := Function.update s.ports r (some { link := newPort, addr := a, fragDescPool := some pool })
        heap := h'
        holds := Function.update s.holds r (s.holds r + 1) }) := by
  unfold rmnetRegisterRealDeviceMem at hret
  rw [if_neg (by simp [hnone])] at hret
  cases h0 : s.heap.outcome 0 with
  | false =>
    rw [alloc_fail h0] at hret
    cases hret
    exact .inl ⟨by simp [enomem], by simp, rfl, rfl, rfl, rfl, hown.disjoint, hown.live⟩
  | true =>
    obtain ⟨a, h₁, halloc, hout, -, hnext⟩ := alloc_success h0
    obtain ⟨hnew, hown₁⟩ := hnext l t hown
    rw [halloc] at hret
    simp only at hret
    by_cases hrx : env.rxHandlerRegister = true
    · rw [if_neg (by simp [hrx])] at hret
      rcases descriptorInit_cases hown₁ with ⟨-, h₂, heq⟩ | ⟨-, h₂, pool, rc, heq, hf, hrc⟩
      · -- the undo code takes a null pool apart, so the call has no result
        rw [heq] at hret
        simp only [rmnetDescriptorDeinitMem, Option.map_none] at hret
        rw [if_pos (by simp [enomem])] at hret
        cases hret
      · rw [heq] at hret
        simp only at hret
        -- the pool's allocations follow the port's and the pool's own
        have hpool : rc = 0 ↔ ∀ i < fragDescriptorPoolSize, s.heap.outcome (2 + i) = true := by
          rw [hrc, hout]
          refine forall₂_congr fun i _ => ?_
          show s.heap.outcome (1 + i + 1) = true ↔ s.heap.outcome (2 + i) = true
          rw [show 1 + i + 1 = 2 + i by omega]
        by_cases hzero : rc ≠ 0
        · rw [if_pos hzero] at hret
          obtain ⟨h₃, -, hs'⟩ := Option.map_eq_some_iff.mp hret
          cases hs'
          exact .inr (.inl ⟨hzero, ⟨rfl, hrx, fun hall => hzero (hpool.mpr hall)⟩, by simp⟩)
        · rw [if_neg hzero] at hret
          cases hret
          exact .inr (.inr ⟨rfl, hpool.mp (not_not.mp hzero), a, pool, h₂, hnew, hf, rfl⟩)
    · rw [if_pos (by simpa using hrx)] at hret
      cases hret
      have hlast := hown₁.free (Finset.mem_insert_self a t)
      rw [Finset.erase_insert hnew] at hlast
      exact .inl ⟨by simp [ebusy], fun h => hrx h.2, rfl, rfl, rfl, rfl, hlast⟩

/-- A device that was registered by the call is taken out again when the rmnet device fails. -/
theorem newlink_undone (hnone : s.ports r = none) {h : Heap} (hep : Owns s.heap.live {ep} h) {s₁ : LinkMem}
    (hreg : rmnetRegisterRealDeviceMem env { s with heap := h } r = some (s₁, 0))
    (hret : newlinkCreate env s₁ dev r m ep data = some (s', err)) (herr : err ≠ 0) : SameLink s s' := by
  obtain ⟨a, pool, h₁, hnew, hf, rfl⟩ : ∃ a pool h₁, a ∉ ({ep} : Finset ℕ) ∧
      Filled s.heap.live (insert a {ep}) pool h₁ ∧ s₁ = { s with
        ports := Function.update s.ports r (some { link := newPort, addr := a, fragDescPool := some pool })
        heap := h₁
        holds := Function.update s.holds r (s.holds r + 1) } := by
    rcases registerMem_cases (s := { s with heap := h }) hnone hep hreg with ⟨hne, -⟩ | ⟨hne, -⟩ | ⟨-, -, hdone⟩
    · exact absurd rfl hne
    · exact absurd rfl hne
    · exact hdone
  obtain ⟨h₂, s₂, rc, hkeep, hunreg, rfl⟩ := newlinkCreate_failed (Function.update_self ..) hret herr
  obtain ⟨h₃, hdeinit, hown⟩ := (⟨hf.nodup, hf.fresh, hkeep _ _ hf.owns⟩ :
    Filled s.heap.live (insert a {ep}) pool h₂).deinit
  simp only [rmnetUnregisterRealDeviceMem, Function.update_self, newPort, ne_eq, not_true_eq_false, if_false,
    hdeinit, Option.map_some, Option.some.injEq, Prod.mk.injEq] at hunreg
  obtain ⟨rfl, -⟩ := hunreg
  have hport := hown.free (Finset.mem_insert_self a {ep})
  rw [Finset.erase_insert hnew] at hport
  have hlast := hport.free (Finset.mem_singleton_self ep)
  rw [Finset.erase_singleton] at hlast
  refine ⟨?_, rfl, rfl, hlast.undone, ?_⟩
  · rw [Function.update_idem, ← hnone, Function.update_eq_self]
  · show Function.update (Function.update s.holds r (s.holds r + 1)) r (s.holds r) = s.holds
    rw [Function.update_idem, Function.update_eq_self]

/-- **Exactly when a failed link creation changes nothing.**  Whenever `rmnet_newlink` returns an error, the real
device, its port and pool, the live objects and the references are as before if and only if the call does
not fail in one of the two places without undo code. -/
theorem newlink_clean_iff (env : NetdevEnv) (s : LinkMem) (dev : ℕ) (data : LinkAttrs) {s' : LinkMem} {err : ℤ}
    (hret : rmnetNewlinkMem env s dev data = some (s', err)) (herr : err ≠ 0) :
    SameLink s s' ↔ NewlinkFailsClean env s data := by
  unfold rmnetNewlinkMem at hret
  cases hl : data.link with
  | none =>
    simp only [hl] at hret
    cases hret
    exact iff_of_true ⟨rfl, rfl, rfl, rfl, rfl⟩ fun r m hr => by simp [hl] at hr
  | some r =>
    cases hm : data.muxId with
    | none =>
      simp only [hl, hm] at hret
      cases hret
      exact iff_of_true ⟨rfl, rfl, rfl, rfl, rfl⟩ fun r m _ hmux => by simp [hm] at hmux
    | some m =>
      simp only [hl, hm] at hret
      -- the condition speaks of this device only
      have hclean : NewlinkFailsClean env s data ↔ (s.heap.outcome 0 = true →
          (∀ port, s.ports r = some port → port.link.nrRmnetDevs ≠ 0) ∧
          (s.ports r = none → s.heap.outcome 1 = true → env.rxHandlerRegister = true →
            ∀ i < fragDescriptorPoolSize, s.heap.outcome (3 + i) = true)) := by
        refine ⟨fun h => h r m hl hm, fun h r' m' hr' _ => ?_⟩
        rw [hl, Option.some.injEq] at hr'
        exact hr' ▸ h
      rw [hclean]
      cases h0 : s.heap.outcome 0 with
      | false =>
        rw [alloc_fail h0] at hret
        cases hret
        exact iff_of_true ⟨rfl, rfl, rfl, rfl, rfl⟩ nofun
      | true =>
        obtain ⟨ep, h₁, halloc, hout, -, hnext⟩ := alloc_success h0
        obtain ⟨-, hep⟩ := hnext _ _ (Owns.start s.heap)
        rw [halloc] at hret
        obtain ⟨⟨s₁, rc⟩, hreg, hret⟩ := Option.bind_eq_some_iff.mp hret
        simp only at hret
        cases hport : s.ports r with
        | some port =>
          rw [rmnetRegisterRealDeviceMem, if_pos (by simp [hport])] at hreg
          cases hreg
          rw [if_neg (by simp)] at hret
          rw [newlink_registered_iff hport hep hret herr]
          simp
        | none =>
          rcases registerMem_cases (s := { s with heap := h₁ }) hport hep hreg with
            ⟨hrc, hwhy, hports, hdevs, hcfg, hholds, hown⟩ | ⟨hrc, ⟨h1, hrx, hpool⟩, hleft⟩ | ⟨rfl, hall, -⟩
          · rw [if_pos hrc] at hret
            cases hret
            have hlast := hown.free (Finset.mem_insert_self ep ∅)
            rw [Finset.erase_insert (Finset.notMem_empty ep)] at hlast
            refine iff_of_true ⟨hports, hdevs, hcfg, hlast.undone, hholds⟩ fun _ => ⟨fun port hp => ?_, ?_⟩
            · cases hp
            intro _ h1 hrx
            rw [hout] at hwhy
            exact absurd ⟨h1, hrx⟩ hwhy
          · rw [if_pos hrc] at hret
            cases hret
            refine iff_of_false (fun hsame => hleft ?_) fun hcond => hpool fun i hi => ?_
            · have hp := congrFun hsame.ports r
              rw [hport] at hp
              exact hp
            · rw [hout] at h1 ⊢
              have hi' := (hcond rfl).2 rfl h1 hrx i hi
              rwa [show 3 + i = 2 + i + 1 by omega] at hi'
          · rw [if_neg (not_not.mpr rfl)] at hret
            have hsame := newlink_undone hport hep hreg hret herr
            refine iff_of_true hsame fun _ => ⟨fun port hp => ?_, ?_⟩
            · cases hp
            intro _ _ _ i hi
            have hi' := hall i hi
            rw [hout] at hi'
            rwa [show 3 + i = 2 + i + 1 by omega]

/-! ### Without the objects -/

theorem link_port (s : LinkMem) (r : ℕ) : s.link.ports r = (s.ports r).map PortMem.link := rfl

theorem link_setPort (s : LinkMem) (r : ℕ) (o : Option PortMem) (h : Heap) (n : ℕ → ℕ) :
    ({ s with ports := Function.update s.ports r o, heap := h, holds := n } : LinkMem).link
      = s.link.setPort r (o.map PortMem.link) := by
  have hports : (fun x => (Function.update s.ports r o x).map PortMem.link)
      = Function.update (fun x => (s.ports x).map PortMem.link) r (o.map PortMem.link) := by
    funext x
    by_cases hx : x = r
    · rw [hx, Function.update_self, Function.update_self]
    · rw [Function.update_of_ne hx, Function.update_of_ne hx]
  simp only [LinkMem.link, LinkState.setPort, hports]

/-- `rmnet_unregister_real_device` does to the ports what it does without the objects. -/
theorem unregisterMem_link {rc : ℤ} {port : PortMem} (hport : s.ports r = some port)
    (h : rmnetUnregisterRealDeviceMem s r = some (s', rc)) :
    rmnetUnregisterRealDevice s.link r port.link = (s'.link, rc) := by
  unfold rmnetUnregisterRealDeviceMem at h
  rw [hport] at h
  by_cases hnr : port.link.nrRmnetDevs ≠ 0
  · simp only [if_pos hnr] at h
    cases h
    exact unregister_refused _ _ hnr
  · simp only [if_neg hnr] at h
    obtain ⟨h', -, heq⟩ := Option.map_eq_some_iff.mp h
    cases heq
    rw [unregister_done _ _ (not_not.mp hnr), link_setPort]
    rfl

/-- `rmnet_register_real_device` does, for the outcomes of its allocations. -/
theorem registerMem_link (h : rmnetRegisterRealDeviceMem env s r = some (s', err)) :
    ∃ portAlloc descriptorInit, ∀ env' : LinkEnv, env'.portAlloc = portAlloc →
      env'.descriptorInit = descriptorInit → env'.rxHandlerRegister = env.rxHandlerRegister →
      rmnetRegisterRealDevice env' s.link r = (s'.link, err) := by
  unfold rmnetRegisterRealDeviceMem at h
  cases hport : s.ports r with
  | some port =>
    rw [if_pos (by simp [hport])] at h
    cases h
    refine ⟨true, 0, fun env' _ _ _ => ?_⟩
    exact register_registered env' (by rw [link_port, hport]; rfl)
  | none =>
    have hfree : rmnetIsRealDevRegistered s.link r = false := by
      rw [rmnetIsRealDevRegistered, link_port, hport]
      rfl
    rw [if_neg (by simp [hport])] at h
    cases h0 : alloc s.heap with
    | mk h₁ o =>
      rw [h0] at h
      cases o with
      | none =>
        cases h
        refine ⟨false, 0, fun env' hp _ _ => ?_⟩
        rw [rmnetRegisterRealDevice, hfree, hp]
        rfl
      | some a =>
        simp only at h
        by_cases hrx : env.rxHandlerRegister = true
        · rw [if_neg (by simp [hrx])] at h
          rcases hpool : rmnetDescriptorInitMem h₁ with ⟨h₂, pool, rc⟩
          rw [hpool] at h
          refine ⟨true, rc, fun env' hp hd hx => ?_⟩
          rw [rmnetRegisterRealDevice, hfree, hp, hx, hrx, hd]
          simp only at h
          by_cases hrc : rc ≠ 0
          · rw [if_pos hrc] at h
            obtain ⟨h₃, -, heq⟩ := Option.map_eq_some_iff.mp h
            cases heq
            simp only [Bool.false_eq_true, Bool.not_true, if_false]
            rw [link_setPort]
            rfl
          · rw [if_neg hrc] at h
            cases h
            simp only [Bool.false_eq_true, Bool.not_true, if_false]
            rw [not_not.mp hrc, link_setPort]
            rfl
        · rw [if_pos (by simpa using hrx)] at h
          cases h
          refine ⟨true, 0, fun env' hp _ hx => ?_⟩
          rw [rmnetRegisterRealDevice, hfree, hp, hx]
          simp only [hrx]
          rfl

/-- `rmnet_vnd_newlink` does, for the outcome of `register_netdevice`. -/
theorem vndNewlinkMem_link (env : NetdevEnv) (id dev realDev : ℕ) (port : LinkPort) (ep : RmnetEndpoint)
    (h : Heap) : ∃ registerNetdevice qosAlloc, ∀ env' : LinkEnv, env'.registerNetdevice = registerNetdevice →
      env'.qosAlloc = qosAlloc → env'.numTxQueues = env.numTxQueues →
      rmnetVndNewlink env' id dev realDev port ep = (rmnetVndNewlinkMem env id dev realDev port ep h).2 := by
  refine ⟨(registerNetdevice env h).2, (alloc (registerNetdevice env h).1).2.isSome, fun env' hr hq hn => ?_⟩
  unfold rmnetVndNewlinkMem rmnetVndNewlink
  by_cases hep : ep.egressDev.isSome = true
  · rw [if_pos hep, if_pos hep]
  · rw [if_neg hep, if_neg hep]
    by_cases hget : (rmnetGetEndpoint port id).isSome = true
    · rw [if_pos hget, if_pos hget]
    · rw [if_neg hget, if_neg hget, hr, hq, hn]
      rcases registerNetdevice env h with ⟨h₁, rc⟩
      by_cases hrc : rc ≠ 0
      · simp only [if_pos hrc]
      · simp only [if_neg hrc]

/-- **The link request.**  What a call of `rmnet_newlink` does to the ports and the rmnet devices, and what it
returns, is what the link request does, for the outcomes of the call. -/
theorem newlinkMem_link (hret : rmnetNewlinkMem env s dev data = some (s', err)) :
    ∃ env', rmnetNewlink env' s.link dev data = (s'.link, err) := by
  unfold rmnetNewlinkMem at hret
  cases hl : data.link with
  | none =>
    simp only [hl] at hret
    cases hret
    exact ⟨{}, by rw [rmnetNewlink, hl]⟩
  | some r =>
    cases hm : data.muxId with
    | none =>
      simp only [hl, hm] at hret
      cases hret
      exact ⟨{}, by rw [rmnetNewlink, hl, hm]⟩
    | some m =>
      simp only [hl, hm] at hret
      cases h0 : alloc s.heap with
      | mk h₁ o =>
        rw [h0] at hret
        cases o with
        | none =>
          cases hret
          exact ⟨{ epAlloc := false }, by rw [rmnetNewlink, hl, hm]; rfl⟩
        | some ep =>
          obtain ⟨⟨s₁, rc⟩, hreg, hret⟩ := Option.bind_eq_some_iff.mp hret
          obtain ⟨pa, di, hreg⟩ := registerMem_link (s := { s with heap := h₁ }) hreg
          simp only at hret
          by_cases hrc : rc ≠ 0
          · rw [if_pos hrc] at hret
            cases hret
            refine ⟨{ portAlloc := pa, descriptorInit := di, rxHandlerRegister := env.rxHandlerRegister }, ?_⟩
            have hreg' := hreg { portAlloc := pa, descriptorInit := di,
                                 rxHandlerRegister := env.rxHandlerRegister } rfl rfl rfl
            unfold rmnetNewlink
            simp only [hl, hm, Bool.not_true, Bool.false_eq_true, if_false]
            rw [show s.link = ({ s with heap := h₁ } : LinkMem).link from rfl, hreg']
            exact if_pos hrc
          · rw [if_neg hrc] at hret
            rw [not_not] at hrc
            unfold newlinkCreate at hret
            cases hport : s₁.ports r with
            | none =>
              rw [hport] at hret
              cases hret
            | some port =>
              rw [hport] at hret
              simp only at hret
              obtain ⟨rn, qa, hvnd⟩ := vndNewlinkMem_link env (u8 m) dev r port.link {} s₁.heap
              refine ⟨{ portAlloc := pa, descriptorInit := di, rxHandlerRegister := env.rxHandlerRegister,
                        registerNetdevice := rn, qosAlloc := qa, numTxQueues := env.numTxQueues }, ?_⟩
              have hreg' := hreg { portAlloc := pa, descriptorInit := di,
                                   rxHandlerRegister := env.rxHandlerRegister, registerNetdevice := rn,
                                   qosAlloc := qa, numTxQueues := env.numTxQueues } rfl rfl rfl
              have hvnd' := hvnd { portAlloc := pa, descriptorInit := di,
                                   rxHandlerRegister := env.rxHandlerRegister, registerNetdevice := rn,
                                   qosAlloc := qa, numTxQueues := env.numTxQueues } rfl rfl rfl
              have hlink : s₁.link.ports r = some port.link := by rw [link_port, hport]; rfl
              unfold rmnetNewlink
              simp only [hl, hm, Bool.not_true, Bool.false_eq_true, if_false]
              rw [show s.link = ({ s with heap := h₁ } : LinkMem).link from rfl, hreg']
              simp only [hrc, ne_eq, not_true_eq_false, if_false, hlink]
              rw [hvnd']
              clear hvnd hvnd'
              generalize rmnetVndNewlinkMem env (u8 m) dev r port.link {} s₁.heap = res at hret ⊢
              obtain ⟨h₂, ⟨link, endpoint, priv⟩, e⟩ := res
              by_cases he : e = 0
              · subst he
                simp only at hret ⊢
                cases hret
                refine Prod.ext ?_ rfl
                exact (congrArg (fun st : LinkState => st.setDev dev priv)
                  (link_setPort s₁ r (some { port with link := _ }) h₂ s₁.holds)).symm
              · simp only at hret ⊢
                obtain ⟨⟨s₂, rc₂⟩, hunreg, heq⟩ := Option.map_eq_some_iff.mp hret
                cases heq
                have hstate := unregisterMem_link (s := { s₁ with heap := h₂ }) hport hunreg
                rw [show s₁.link = ({ s₁ with heap := h₂ } : LinkMem).link from rfl, hstate]
                rfl

end

/-! ### Two calls -/

/-- Nothing is registered and nothing allocated; the given allocations fail. -/
def bareLinkMem (outcome : ℕ → Bool) : LinkMem :=
  { ports := fun _ => none, devs := fun _ => none, cfg := bareLink.cfg,
    heap := { live := ∅, outcome := outcome }, holds := fun _ => 0 }

/-- Real device 0 with device 1 under mux id 1. -/
def oneLinkMem : LinkMem :=
  { bareLinkMem (fun _ => true) with
    ports := fun r => if r = 0 then (oneLink.ports 0).map fun port =>
      { link := port, addr := 1, fragDescPool := some { addr := 2, freeList := [], poolSize := 0 } } else none
    devs := oneLink.devs
    heap := { live := {1, 2}, outcome := fun _ => true }
    holds := fun r => if r = 0 then 1 else 0 }

/-- A second device with the mux id 1 is refused, and nothing has changed. -/
theorem newlink_clean_busy : ∃ s', rmnetNewlinkMem {} oneLinkMem 2 (muxAttrs 1) = some (s', -ebusy) ∧
    SameLink oneLinkMem s' := by
  refine ⟨_, rfl, (newlink_clean_iff {} oneLinkMem 2 (muxAttrs 1) rfl (by decide)).mpr ?_⟩
  rintro r m hr - -
  cases hr
  refine ⟨fun port hport => ?_, nofun⟩
  cases hport
  decide

/-- **A failed call registers the device.**  The second descriptor of the pool cannot be allocated: the call
returns `-ENOMEM`, and the real device, which was not registered, is. -/
theorem newlink_leaks : ∃ s', rmnetNewlinkMem {} (bareLinkMem fun n => n ≠ 4) 1 (muxAttrs 1) = some (s', -enomem) ∧
    (s'.ports 0).isSome ∧ s'.holds 0 = 1 ∧ ¬ SameLink (bareLinkMem fun n => n ≠ 4) s' := by
  refine ⟨_, rfl, rfl, rfl, fun hsame => ?_⟩
  have hports := congrFun hsame.ports 0
  cases hports

end Rmnet
