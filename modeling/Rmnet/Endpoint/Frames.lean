import Rmnet.Lib.Probe
import Rmnet.Linear.Ingress

/-!
# The endpoints that frames look up

`rmnet_get_endpoint` takes any byte and does not check it against the table of `RMNET_MAX_LOGICAL_EP` entries, so
each of its callers has to.  Here are those that a received frame reaches, on both paths, with `probe` where they
call it.  Each has the value of the function as modelled before, and looks up what is in the table.

* `mapIngressLoop_within`, `rmnetFragIngressHandler_within` — for any received buffer and any port.
-/

namespace Rmnet

open Word Field Probe

/-- The index of an entry of `muxed_ep`. -/
def InTable (i : ℕ) : Prop := i < maxLogicalEp

instance InTable.decidable (i : ℕ) : Decidable (InTable i) := inferInstanceAs (Decidable (_ < _))

/-! ### Flow control commands -/

/-- `rmnet_map_do_flow_control` and `rmnet_frag_do_flow_control`. -/
def doFlowControlProbed (port : RmnetPort) (muxId : ℕ) (enable : Bool) : Probed ℕ (RmnetPort × Bool) :=
  if maxLogicalEp ≤ muxId then pure (port, false)
  else do
    match ← probe port.endpoint muxId with
    | none => pure (port, false)
    | some vnd => pure ({ port with control := port.control ++ [.flowControl vnd enable] }, true)

/-- The switch of `rmnet_map_command` and `rmnet_frag_command`. -/
def commandSwitchProbed (port : RmnetPort) (muxId commandName : ℕ) : Probed ℕ (RmnetPort × Bool) :=
  match commandName with
  | 1 => doFlowControlProbed port muxId false
  | 2 => doFlowControlProbed port muxId true
  | _ => pure (port, false)

theorem doFlowControlProbed_value (port : RmnetPort) (muxId : ℕ) (enable : Bool) :
    value (doFlowControlProbed port muxId enable) =
      if maxLogicalEp ≤ muxId then (port, false)
      else
        match port.endpoint muxId with
        | none => (port, false)
        | some vnd => ({ port with control := port.control ++ [.flowControl vnd enable] }, true) := by
  unfold doFlowControlProbed
  rw [value_ite, value_bind, value_probe]
  cases port.endpoint muxId with
  | none => rfl
  | some vnd => rfl

theorem doFlowControlProbed_linear (port : RmnetPort) (skb : SkBuff) (enable : Bool) :
    value (doFlowControlProbed port (mapHeaderOf skb).muxId enable) = rmnetMapDoFlowControl port skb enable :=
  doFlowControlProbed_value port (mapHeaderOf skb).muxId enable

theorem doFlowControlProbed_frag (port : RmnetPort) (qmap : MapHeader) (enable : Bool) :
    value (doFlowControlProbed port qmap.muxId enable) = rmnetFragDoFlowControl port qmap enable :=
  doFlowControlProbed_value port qmap.muxId enable

theorem commandSwitchProbed_value (port : RmnetPort) (muxId commandName : ℕ) :
    value (commandSwitchProbed port muxId commandName) = match commandName with
      | 1 => value (doFlowControlProbed port muxId false)
      | 2 => value (doFlowControlProbed port muxId true)
      | _ => (port, false) := by
  unfold commandSwitchProbed
  split
  · rfl
  · rfl
  · rfl

theorem doFlowControl_within (port : RmnetPort) (muxId : ℕ) (enable : Bool) :
    Within InTable (doFlowControlProbed port muxId enable) := by
  refine within_ite (fun _ => within_pure _) fun hlt => within_probe_bind (not_le.mp hlt) ?_
  split
  · exact within_pure _
  · exact within_pure _

theorem commandSwitch_within (port : RmnetPort) (muxId commandName : ℕ) :
    Within InTable (commandSwitchProbed port muxId commandName) := by
  unfold commandSwitchProbed
  split
  · exact doFlowControl_within port muxId false
  · exact doFlowControl_within port muxId true
  · exact within_pure _

/-! ### The linear path -/

section

variable (skipExthdr : Bytes → ℕ → ℕ → SkipExthdr)
  (dlCsum : RmnetPort → NetDevice → SkBuff → ℕ → RmnetPort × Bool)

/-- `rmnet_map_command`. -/
def rmnetMapCommandProbed (port : RmnetPort) (skb : SkBuff) : Probed ℕ RmnetPort := do
  let (port, acked) ← commandSwitchProbed port (mapHeaderOf skb).muxId (byteAt (rmnetMapGetCmdStart skb) 0)
  pure (if acked then rmnetMapSendAck port skb else port)

/-- The part of `__rmnet_map_ingress_handler` for a frame with the command bit. -/
def mapIngressCommandProbed (port : RmnetPort) (skb : SkBuff) : Probed ℕ RmnetPort :=
  match if ingressDlMarker port.dataFormat then rmnetMapFlowCommand port skb else none with
  | some port => pure port
  | none => if ingressMapCommands port.dataFormat then rmnetMapCommandProbed port skb else pure port

/-- `__rmnet_map_ingress_handler`. -/
def rmnetMapIngressSkbProbed (port : RmnetPort) (skb : SkBuff) : Probed ℕ (RmnetPort × List Delivery) :=
  let qmap := mapHeaderOf skb
  if qmap.cdBit then do
    let port ← mapIngressCommandProbed port skb
    pure (port, [])
  else if maxLogicalEp ≤ qmap.muxId then pure (port, [])
  else do
    match ← probe port.endpoint qmap.muxId with
    | none => pure (port, [])
    | some dev =>
        if nextHdrFrame port.dataFormat qmap then
          match rmnetMapProcessNextHdrPacket skipExthdr port dev skb qmap.unpadded with
          | (port, none) => pure (port, [])
          | (port, some list) => pure (port, list.map fun skb => (dev, skb))
        else
          let skb := pskbPull skb mapHeaderSize
          let (port, ok) := if ingressMapCksumv4 port.dataFormat
            then dlCsum port dev skb (u16 (qmap.unpadded + qmap.padLen)) else (port, false)
          let skb := if ok then { skb with ipSummed := .checksumUnnecessary } else skb
          pure (port, [(dev, pskbTrim skb qmap.unpadded)])

/-- The loop of `rmnet_map_ingress_handler` over one buffer. -/
def mapIngressLoopProbed (behind : ℕ → UInt8) :
    ℕ → RmnetPort → SkBuff → Probed ℕ (Option (RmnetPort × List Delivery))
  | 0, _, _ => pure none
  | fuel + 1, port, skb =>
      match rmnetMapDeaggregate behind port skb with
      | (port, .null) => pure (some (port, []))
      | (port, .same) => some <$> rmnetMapIngressSkbProbed skipExthdr dlCsum port skb
      | (port, .packet skbn skb) => do
          let (port, out) ← rmnetMapIngressSkbProbed skipExthdr dlCsum port skbn
          let rest ← mapIngressLoopProbed behind fuel port skb
          pure (rest.map fun r => (r.1, out ++ r.2))

variable (port : RmnetPort) (skb : SkBuff)

theorem rmnetMapCommandProbed_value : value (rmnetMapCommandProbed port skb) = rmnetMapCommand port skb := by
  unfold rmnetMapCommandProbed rmnetMapCommand
  rw [value_bind, commandSwitchProbed_value]
  simp only [doFlowControlProbed_linear]
  rfl

theorem rmnetMapCommand_within : Within InTable (rmnetMapCommandProbed port skb) := by
  unfold rmnetMapCommandProbed
  rw [within_bind]
  exact ⟨commandSwitch_within port _ _, within_pure _⟩

theorem mapIngressCommandProbed_value :
    value (mapIngressCommandProbed port skb) = mapIngressCommand port skb := by
  unfold mapIngressCommandProbed mapIngressCommand
  cases if ingressDlMarker port.dataFormat then rmnetMapFlowCommand port skb else none with
  | some port' => rfl
  | none =>
    simp only
    rw [value_ite, rmnetMapCommandProbed_value, value_pure]

theorem mapIngressCommand_within : Within InTable (mapIngressCommandProbed port skb) := by
  unfold mapIngressCommandProbed
  split
  · exact within_pure _
  · exact within_ite (fun _ => rmnetMapCommand_within port skb) fun _ => within_pure _

theorem rmnetMapIngressSkbProbed_value :
    value (rmnetMapIngressSkbProbed skipExthdr dlCsum port skb) = rmnetMapIngressSkb skipExthdr dlCsum port skb := by
  unfold rmnetMapIngressSkbProbed rmnetMapIngressSkb
  simp only [value_ite, value_bind, value_pure, value_probe, mapIngressCommandProbed_value]
  split
  · rfl
  · split
    · rfl
    · cases port.endpoint (mapHeaderOf skb).muxId with
      | none => rfl
      | some dev =>
        simp only
        rw [value_ite]
        congr 1
        obtain ⟨port', list | list⟩ := rmnetMapProcessNextHdrPacket skipExthdr port dev skb (mapHeaderOf skb).unpadded
        · rfl
        · rfl

theorem rmnetMapIngressSkb_within : Within InTable (rmnetMapIngressSkbProbed skipExthdr dlCsum port skb) := by
  unfold rmnetMapIngressSkbProbed
  refine within_ite (fun _ => ?_) fun _ => within_ite (fun _ => within_pure _) fun hlt => ?_
  · rw [within_bind]
    exact ⟨mapIngressCommand_within port skb, within_pure _⟩
  · refine within_probe_bind (not_le.mp hlt) ?_
    split
    · exact within_pure _
    · refine within_ite (fun _ => ?_) fun _ => within_pure _
      split
      · exact within_pure _
      · exact within_pure _

/-- The loop is the one over frames. -/
theorem mapIngressLoopProbed_value (behind : ℕ → UInt8) (fuel : ℕ) : ∀ port skb,
    value (mapIngressLoopProbed skipExthdr dlCsum behind fuel port skb)
      = mapIngressLoop skipExthdr dlCsum behind fuel port skb := by
  induction fuel with
  | zero => exact fun _ _ => rfl
  | succ fuel ih =>
    intro port skb
    rw [mapIngressLoopProbed, mapIngressLoop]
    obtain ⟨port', res⟩ := rmnetMapDeaggregate behind port skb
    cases res with
    | null => rfl
    | same =>
      simp only
      rw [value_map, rmnetMapIngressSkbProbed_value]
    | packet skbn skb' => simp only [value_bind, value_pure, rmnetMapIngressSkbProbed_value, ih]

/-- **A received buffer on the linear path.** -/
theorem mapIngressLoop_within (behind : ℕ → UInt8) (fuel : ℕ) : ∀ port skb,
    Within InTable (mapIngressLoopProbed skipExthdr dlCsum behind fuel port skb) := by
  induction fuel with
  | zero => exact fun _ _ => within_pure _
  | succ fuel ih =>
    intro port skb
    rw [mapIngressLoopProbed]
    split
    · exact within_pure _
    · rw [within_map]
      exact rmnetMapIngressSkb_within skipExthdr dlCsum _ skb
    · simp only [within_bind, within_pure, and_true]
      exact ⟨rmnetMapIngressSkb_within skipExthdr dlCsum _ _, ih _ _⟩

end

/-! ### The fragment path -/

/-- `rmnet_frag_command`. -/
def rmnetFragCommandProbed (port : RmnetPort) (desc : RmnetFragDescriptor) (qmap : MapHeader) :
    Probed ℕ RmnetPort :=
  match rmnetFragHeaderPtr desc mapHeaderSize controlCommandSize with
  | none => pure port
  | some cmd => do
      let (port, acked) ← commandSwitchProbed port qmap.muxId (byteAt cmd 0)
      pure (if acked then rmnetFragSendAck port else port)

/-- The part of `__rmnet_frag_ingress_handler` for a frame with the command bit. -/
def fragIngressCommandProbed (port : RmnetPort) (desc : RmnetFragDescriptor) (qmap : MapHeader) :
    Probed ℕ RmnetPort :=
  if ingressDlMarker port.dataFormat then pure (rmnetFragFlowCommand port desc qmap.unpadded)
  else if ingressMapCommands port.dataFormat then rmnetFragCommandProbed port desc qmap
  else pure port

/-- `__rmnet_frag_ingress_handler`. -/
def rmnetFragIngressDescProbed (port : RmnetPort) (desc : RmnetFragDescriptor) : Probed ℕ RmnetPort :=
  match (rmnetFragHeaderPtr desc 0 mapHeaderSize).map MapHeader.parse with
  | none => pure (rmnetRecycleFragDescriptor port desc).1
  | some qmap =>
      if qmap.cdBit then do
        let port ← fragIngressCommandProbed port desc qmap
        pure (rmnetRecycleFragDescriptor port desc).1
      else if maxLogicalEp ≤ qmap.muxId then pure (rmnetRecycleFragDescriptor port desc).1
      else do
        match ← probe port.endpoint qmap.muxId with
        | none => pure (rmnetRecycleFragDescriptor port desc).1
        | some dev =>
            let desc := { desc with dev := some dev }
            if nextHdrFrame port.dataFormat qmap then
              match rmnetFragProcessNextHdrPacket port desc qmap.unpadded with
              | (port, desc, _, false) => pure (rmnetRecycleFragDescriptor port desc).1
              | (port, _, segs, true) => pure (segs.foldl rmnetFragDeliver port)
            else
              match rmnetFragPull port desc mapHeaderSize with
              | (port, _, false) => pure port
              | (port, desc, true) =>
                  match rmnetFragTrim port desc qmap.unpadded with
                  | (port, _, false) => pure port
                  | (port, desc, true) => pure (rmnetFragDeliver port desc)

/-- The loop of `rmnet_frag_ingress_handler` over a buffer and those on its `frag_list`. -/
def rmnetFragIngressHandlerProbed (port : RmnetPort) : List RxSkb → Probed ℕ (Option RmnetPort)
  | [] => pure (some port)
  | skb :: rest =>
      match rmnetFragDeaggregate port skb [] with
      | none => pure none
      | some (port, descs) => do
          let port ← descs.foldlM rmnetFragIngressDescProbed port
          rmnetFragIngressHandlerProbed port rest

section

variable (port : RmnetPort) (desc : RmnetFragDescriptor)

theorem rmnetFragCommandProbed_value (qmap : MapHeader) :
    value (rmnetFragCommandProbed port desc qmap) = rmnetFragCommand port desc qmap := by
  unfold rmnetFragCommandProbed rmnetFragCommand
  cases rmnetFragHeaderPtr desc mapHeaderSize controlCommandSize with
  | none => rfl
  | some cmd =>
    simp only
    rw [value_bind, commandSwitchProbed_value]
    simp only [doFlowControlProbed_frag]
    rfl

theorem fragIngressCommand_within (qmap : MapHeader) :
    Within InTable (fragIngressCommandProbed port desc qmap) := by
  refine within_ite (fun _ => within_pure _) fun _ => within_ite (fun _ => ?_) fun _ => within_pure _
  unfold rmnetFragCommandProbed
  split
  · exact within_pure _
  · rw [within_bind]
    exact ⟨commandSwitch_within port _ _, within_pure _⟩

theorem rmnetFragIngressDescProbed_value :
    value (rmnetFragIngressDescProbed port desc) = rmnetFragIngressDesc port desc := by
  unfold rmnetFragIngressDescProbed rmnetFragIngressDesc
  cases (rmnetFragHeaderPtr desc 0 mapHeaderSize).map MapHeader.parse with
  | none => rfl
  | some qmap =>
    simp only [value_ite, value_bind, value_pure, value_probe, fragIngressCommandProbed,
      rmnetFragCommandProbed_value]
    congr 2
    cases port.endpoint qmap.muxId with
    | none => rfl
    | some dev =>
      simp only
      rw [value_ite]
      congr 1
      · obtain ⟨port', desc', segs, ok⟩ :=
          rmnetFragProcessNextHdrPacket port { desc with dev := some dev } qmap.unpadded
        cases ok with
        | false => rfl
        | true => rfl
      · obtain ⟨port', desc', ok⟩ := rmnetFragPull port { desc with dev := some dev } mapHeaderSize
        cases ok with
        | false => rfl
        | true =>
          simp only
          obtain ⟨port'', desc'', ok⟩ := rmnetFragTrim port' desc' qmap.unpadded
          cases ok with
          | false => rfl
          | true => rfl

theorem rmnetFragIngressDesc_within : Within InTable (rmnetFragIngressDescProbed port desc) := by
  unfold rmnetFragIngressDescProbed
  split
  · exact within_pure _
  · rename_i qmap _
    refine within_ite (fun _ => ?_) fun _ => within_ite (fun _ => within_pure _) fun hlt => ?_
    · rw [within_bind]
      exact ⟨fragIngressCommand_within port desc qmap, within_pure _⟩
    · refine within_probe_bind (not_le.mp hlt) ?_
      split
      · exact within_pure _
      · refine within_ite (fun _ => ?_) fun _ => ?_
        · split
          · exact within_pure _
          · exact within_pure _
        · split
          · exact within_pure _
          · split
            · exact within_pure _
            · exact within_pure _

end

theorem rmnetFragIngressHandlerProbed_value (skbs : List RxSkb) : ∀ port,
    value (rmnetFragIngressHandlerProbed port skbs) = rmnetFragIngressHandler port skbs := by
  induction skbs with
  | nil => exact fun _ => rfl
  | cons skb rest ih =>
    intro port
    rw [rmnetFragIngressHandlerProbed, rmnetFragIngressHandler]
    cases rmnetFragDeaggregate port skb [] with
    | none => rfl
    | some res =>
      simp only
      rw [value_bind, value_foldlM, ih]
      simp only [rmnetFragIngressDescProbed_value]

/-- **A received buffer on the fragment path.** -/
theorem rmnetFragIngressHandler_within (skbs : List RxSkb) : ∀ port,
    Within InTable (rmnetFragIngressHandlerProbed port skbs) := by
  induction skbs with
  | nil => exact fun _ => within_pure _
  | cons skb rest ih =>
    intro port
    rw [rmnetFragIngressHandlerProbed]
    split
    · exact within_pure _
    · rw [within_bind]
      exact ⟨within_foldlM _ rmnetFragIngressDesc_within _ _, ih _⟩

end Rmnet
