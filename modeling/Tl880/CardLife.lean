import Mathlib.Data.List.Perm.Basic
import Tl880.Probe

/-!
# The life of a card

The kernel probes a card with `tl880_probe`, which enables the PCI device and calls
`tl880_configure`, and the end of that sets up the hardware audio: a block of the card's pool
and a buffer for AC3 frames.  When the card is removed `tl880_unconfigure` releases what was
acquired, by what the fields of the card say.

Three things are not in the fields.  An interrupt line 0 counts as no line at all, nothing
records which adapters `i2c_bit_add_bus` accepted, so that all of them are deleted, and nothing
disables the PCI device (`cardLife_leaves_enabled_iff`).
-/

namespace Tl880

open Ledger

/-! ## The card between its probe and its removal -/

/-- The card after a probe that succeeds, by the steps of `tl880_configure`. -/
def probedCard (env : ProbeEnv) (dev : PciDev) : Option Probe :=
  if env.createDev = false ∨ env.setDmaMask ≠ 0 then none
  else
    match mapRegions env dev [.mem, .reg, .unk] ⟨DevHandles.created, [.acquire .device]⟩ with
    | (_, false) => none
    | (p, true) =>
        if env.cdevAlloc = false ∨ env.requestIrq ≠ 0 then none
        else
          let p : Probe := {
            handles := { p.handles with
              dmavirt := env.dmaAlloc, charDevice := true, irq := dev.irq }
            ops := p.ops ++ acquireIf env.dmaAlloc .dmaBuffer ++ [.acquire .charDevice] ++
              [.acquire .irqHandler] }
          initAdapters env (tl880InitMemory env p)

/-- Whether a card has an adapter for a bus. -/
def ProbeEnv.HasBus (env : ProbeEnv) (busno : Nat) : Prop :=
  busno < (busRange env.cardType).2 + 1 - (busRange env.cardType).1

instance (env : ProbeEnv) (busno : Nat) : Decidable (env.HasBus busno) :=
  inferInstanceAs (Decidable (_ < _))

/-- What a probed card owns. -/
def ProbeEnv.Owns (env : ProbeEnv) : Resource → Prop
  | .device => True
  | .mapping maptype => env.ioremap maptype = true
  | .dmaBuffer => env.dmaAlloc = true
  | .charDevice => True
  | .irqHandler => True
  | .pool => env.poolCreate = true ∧ env.poolAdd = 0
  | .i2cbuses => True
  | .adapter busno => env.HasBus busno ∧ env.addBus busno = 0

/-- What its removal releases. -/
def ProbeEnv.Returns (env : ProbeEnv) (dev : PciDev) : Resource → Prop
  | .irqHandler => dev.irq ≠ 0
  | .adapter busno => env.HasBus busno
  | r => env.Owns r

/-! ## The whole probe -/

/-- What a card can own: what `tl880_configure` acquires in its own code, and what it and
`tl880_probe` acquire around that. -/
inductive CardResource
  | configured (r : Resource)
  /-- the PCI device is enabled -/
  | pciDevice
  /-- 0x7800 bytes of the card's pool -/
  | audioBlock
  /-- `iec_buf` -/
  | iecBuf
  deriving DecidableEq

/-- What the kernel answers during a probe. -/
structure LifeEnv where
  pciEnable : Int
  configure : ProbeEnv
  /-- the pool has the 0x7800 bytes -/
  audioBlock : Bool
  iecAlloc : Bool

/-- `iau_base` and `iec_buf`, as whether they are not 0. -/
structure AudioHandles where
  iauBase : Bool
  iecBuf : Bool

/-- The fields as `tl880_create_dev` sets them. -/
def AudioHandles.created : AudioHandles := ⟨false, false⟩

/-- What `tl880_deinit_hardware_audio` releases. -/
def AudioHandles.release (h : AudioHandles) : List (Op CardResource) :=
  releaseIf h.iauBase .audioBlock ++ releaseIf h.iecBuf .iecBuf

/-- What `tl880_init_hardware_audio` acquires, on a card with a pool or without. -/
def initHardwareAudio (env : LifeEnv) (pool : Bool) (h : AudioHandles) :
    AudioHandles × List (Op CardResource) :=
  let gets := pool && env.audioBlock
  if h.iauBase = false ∧ gets = false then (h, [])
  else
    let block := if h.iauBase then [] else [.acquire .audioBlock]
    if h.iecBuf then ({ h with iauBase := true }, block)
    else (⟨true, env.iecAlloc⟩, block ++ acquireIf env.iecAlloc .iecBuf)

/-- The audio part of `tl880_init_dev`: what there is goes, and is set up again. -/
def initDevAudio (env : LifeEnv) (pool : Bool) (h : AudioHandles) :
    AudioHandles × List (Op CardResource) :=
  let (h', ops) := initHardwareAudio env pool .created
  (h', h.release ++ ops)

/-- The end of `tl880_probe`. -/
structure LifeResult where
  ret : Int
  driver : Driver
  ops : List (Op CardResource)

/-- `tl880_probe`; `none` when it writes through a NULL pointer.  The audio is set up at the
end of `tl880_configure`, when nothing fails any more. -/
def tl880Probe (env : LifeEnv) (ptr : U64) (dev : PciDev) (s : Driver) : Option LifeResult :=
  if env.pciEnable ≠ 0 then some ⟨env.pciEnable, s, []⟩
  else
    (tl880Configure env.configure ptr dev s).map fun r =>
      let audio := match probedCard env.configure dev with
        | none => []
        | some p => (initDevAudio env p.handles.pool .created).2
      ⟨r.ret, r.driver, .acquire .pciDevice :: r.ops.map (Op.map .configured) ++ audio⟩

/-- The removal of a card: `tl880_deinit_dev` first, then the rest of `tl880_unconfigure`. -/
def removeCard (h : DevHandles) (audio : AudioHandles) : List (Op CardResource) :=
  audio.release ++ (tl880Unconfigure h).map (Op.map .configured)

/-- The probe and the removal of the card it has left together release exactly once what they
acquire, but for the PCI device, which stays enabled. -/
def LeavesEnabled (env : LifeEnv) (dev : PciDev) (r : LifeResult) : Prop :=
  ∃ p, probedCard env.configure dev = some p ∧
    settle [] (r.ops ++
      removeCard p.handles (initDevAudio env p.handles.pool .created).1) = some [.pciDevice]

/-! ## What the probe acquires -/

/-- One resource, if there is one. -/
def ifOwned (owned : Bool) (r : Resource) : List Resource := if owned then [r] else []

theorem mem_ifOwned {owned : Bool} {r r' : Resource} :
    r' ∈ ifOwned owned r ↔ owned = true ∧ r' = r := by
  cases owned <;> simp [ifOwned]

theorem acquireIf_eq (owned : Bool) (r : Resource) :
    acquireIf owned r = (ifOwned owned r).map .acquire := by
  cases owned <;> rfl

theorem releaseIf_eq (owned : Bool) (r : Resource) :
    releaseIf owned r = (ifOwned owned r).map .release := by
  cases owned <;> rfl

/-- The adapters that were accepted. -/
def ProbeEnv.adapters (env : ProbeEnv) (accepted : Nat → Bool) : List Resource :=
  ((List.range ((busRange env.cardType).2 + 1 - (busRange env.cardType).1)).filter accepted).map
    .adapter

/-- What the probe holds in the end, in order. -/
def ProbeEnv.held (env : ProbeEnv) : List Resource :=
  [.device] ++ ifOwned (env.ioremap .mem) (.mapping .mem) ++
    ifOwned (env.ioremap .reg) (.mapping .reg) ++ ifOwned (env.ioremap .unk) (.mapping .unk) ++
    ifOwned env.dmaAlloc .dmaBuffer ++ [.charDevice, .irqHandler] ++
    ifOwned (env.poolCreate && decide (env.poolAdd = 0)) .pool ++ [.i2cbuses] ++
    env.adapters fun busno => decide (env.addBus busno = 0)

/-- What the removal releases, in order. -/
def ProbeEnv.released (env : ProbeEnv) (dev : PciDev) : List Resource :=
  [.charDevice] ++ ifOwned (decide (dev.irq ≠ 0)) .irqHandler ++ env.adapters (fun _ => true) ++
    [.i2cbuses] ++ ifOwned (env.ioremap .mem) (.mapping .mem) ++
    ifOwned (env.ioremap .reg) (.mapping .reg) ++ ifOwned (env.ioremap .unk) (.mapping .unk) ++
    ifOwned env.dmaAlloc .dmaBuffer ++
    ifOwned (env.poolCreate && decide (env.poolAdd = 0)) .pool ++ [.device]

theorem mem_adapters (env : ProbeEnv) (accepted : Nat → Bool) (r : Resource) :
    r ∈ env.adapters accepted ↔
      ∃ busno, r = .adapter busno ∧ env.HasBus busno ∧ accepted busno = true := by
  simp only [ProbeEnv.adapters, List.mem_map, List.mem_filter, List.mem_range, ProbeEnv.HasBus]
  constructor
  · rintro ⟨busno, ⟨hbus, haccepted⟩, rfl⟩
    exact ⟨busno, rfl, hbus, haccepted⟩
  · rintro ⟨busno, rfl, hbus, haccepted⟩
    exact ⟨busno, ⟨hbus, haccepted⟩, rfl⟩

theorem nodup_adapters (env : ProbeEnv) (accepted : Nat → Bool) :
    (env.adapters accepted).Nodup := by
  refine (List.nodup_range.filter accepted).map ?_
  intro a b hab
  exact Resource.adapter.inj hab

theorem mem_held_iff (env : ProbeEnv) (r : Resource) : r ∈ env.held ↔ env.Owns r := by
  simp only [ProbeEnv.held, List.mem_append, mem_ifOwned, mem_adapters, List.mem_cons,
    List.not_mem_nil, or_false]
  cases r with
  | mapping maptype => cases maptype <;> simp [ProbeEnv.Owns]
  | _ => simp [ProbeEnv.Owns]

theorem mem_released_iff (env : ProbeEnv) (dev : PciDev) (r : Resource) :
    r ∈ env.released dev ↔ env.Returns dev r := by
  simp only [ProbeEnv.released, List.mem_append, mem_ifOwned, mem_adapters, List.mem_cons,
    List.not_mem_nil, or_false]
  cases r with
  | mapping maptype => cases maptype <;> simp [ProbeEnv.Returns, ProbeEnv.Owns]
  | _ => simp [ProbeEnv.Returns, ProbeEnv.Owns]

theorem ifOwned_sublist (owned : Bool) (r : Resource) : (ifOwned owned r).Sublist [r] := by
  cases owned
  · exact List.nil_sublist _
  · exact List.Sublist.refl _

/-- Nothing is acquired twice. -/
theorem nodup_held (env : ProbeEnv) : env.held.Nodup := by
  have hsub : env.held.Sublist ([Resource.device, .mapping .mem, .mapping .reg, .mapping .unk,
      .dmaBuffer, .charDevice, .irqHandler, .pool, .i2cbuses] ++
        env.adapters fun busno => decide (env.addBus busno = 0)) :=
    ((((((((List.Sublist.refl [_]).append (ifOwned_sublist _ _)).append
      (ifOwned_sublist _ _)).append (ifOwned_sublist _ _)).append (ifOwned_sublist _ _)).append
      (List.Sublist.refl [_, _])).append (ifOwned_sublist _ _)).append
      (List.Sublist.refl [_])).append (List.Sublist.refl _)
  refine hsub.nodup (List.Nodup.append (by decide) (nodup_adapters env _) ?_)
  rw [List.disjoint_left]
  intro r hr hadapter
  obtain ⟨busno, rfl, -⟩ := (mem_adapters env _ r).mp hadapter
  simp at hr

/-- Nothing is released twice. -/
theorem nodup_released (env : ProbeEnv) (dev : PciDev) : (env.released dev).Nodup := by
  have hsub : (env.released dev).Sublist ([Resource.charDevice, .irqHandler] ++
      env.adapters (fun _ => true) ++ [.i2cbuses, .mapping .mem, .mapping .reg, .mapping .unk,
        .dmaBuffer, .pool, .device]) := by
    simp only [ProbeEnv.released, List.append_assoc]
    exact (List.Sublist.refl [_]).append ((ifOwned_sublist _ _).append
      ((List.Sublist.refl _).append ((List.Sublist.refl [_]).append ((ifOwned_sublist _ _).append
      ((ifOwned_sublist _ _).append ((ifOwned_sublist _ _).append ((ifOwned_sublist _ _).append
      ((ifOwned_sublist _ _).append (List.Sublist.refl [_])))))))))
  refine hsub.nodup (List.Nodup.append (List.Nodup.append (by decide) (nodup_adapters env _) ?_)
    (by decide) ?_)
  · rw [List.disjoint_left]
    intro r hr hadapter
    obtain ⟨busno, rfl, -⟩ := (mem_adapters env _ r).mp hadapter
    simp at hr
  · rw [List.disjoint_left]
    intro r hr hrest
    rcases List.mem_append.mp hr with hr | hr
    · simp only [List.mem_cons, List.not_mem_nil, or_false] at hr
      rcases hr with rfl | rfl <;> simp at hrest
    · obtain ⟨busno, rfl, -⟩ := (mem_adapters env _ r).mp hr
      simp at hrest

/-- The removal releases what the probe holds, if there is an interrupt line and every adapter
was accepted. -/
theorem held_perm_released_iff (env : ProbeEnv) (dev : PciDev) :
    env.held.Perm (env.released dev) ↔
      dev.irq ≠ 0 ∧ ∀ busno, env.HasBus busno → env.addBus busno = 0 := by
  rw [List.perm_ext_iff_of_nodup (nodup_held env) (nodup_released env dev)]
  simp only [mem_held_iff, mem_released_iff]
  constructor
  · intro h
    refine ⟨(h .irqHandler).mp trivial, ?_⟩
    intro busno hbus
    exact ((h (.adapter busno)).mpr hbus).2
  · rintro ⟨hirq, hadapters⟩ r
    cases r with
    | irqHandler => exact iff_of_true trivial hirq
    | adapter busno => exact ⟨And.left, fun hbus => ⟨hbus, hadapters busno hbus⟩⟩
    | _ => exact Iff.rfl

/-! ## The ledgers -/

theorem flatMap_acquireIf {α : Type*} (l : List α) (accepted : α → Bool) (r : α → Resource) :
    l.flatMap (fun a => acquireIf (accepted a) (r a)) =
      ((l.filter accepted).map r).map .acquire := by
  induction l with
  | nil => rfl
  | cons a l ih =>
      rw [List.flatMap_cons, ih, List.filter_cons]
      cases accepted a <;> rfl

/-- The adapters are numbered from 0, whatever the bus numbers of the card are. -/
theorem range'_sub (minbus n : Nat) :
    (List.range' minbus n).map (fun i => i - minbus) = List.range n := by
  rw [List.range'_eq_map_range, List.map_map]
  refine (List.map_congr_left ?_).trans (List.map_id _)
  intro i _
  simp

theorem initAdapters_acquired (env : ProbeEnv) :
    ((List.range' (busRange env.cardType).1
        ((busRange env.cardType).2 + 1 - (busRange env.cardType).1)).flatMap fun i =>
          acquireIf (env.addBus (i - (busRange env.cardType).1) = 0)
            (.adapter (i - (busRange env.cardType).1))) =
      (env.adapters fun busno => decide (env.addBus busno = 0)).map .acquire := by
  have hbuses := flatMap_acquireIf (List.range ((busRange env.cardType).2 + 1 -
    (busRange env.cardType).1)) (fun busno => decide (env.addBus busno = 0)) Resource.adapter
  rw [← range'_sub (busRange env.cardType).1, List.flatMap_map] at hbuses
  rw [hbuses, range'_sub, ProbeEnv.adapters]

theorem initAdapters_eq {env : ProbeEnv} {p p' : Probe} (h : initAdapters env p = some p') :
    p' = ⟨{ p.handles with
        minbus := (busRange env.cardType).1, maxbus := (busRange env.cardType).2
        i2cbuses := true },
      p.ops ++ [.acquire .i2cbuses] ++
        (env.adapters fun busno => decide (env.addBus busno = 0)).map .acquire⟩ := by
  unfold initAdapters at h
  split_ifs at h
  rw [← initAdapters_acquired env]
  exact (Option.some.inj h).symm

theorem tl880Unconfigure_returned {env : ProbeEnv} {dev : PciDev} {h : DevHandles}
    (hspaces : h.spaces = env.ioremap) (hdma : h.dmavirt = env.dmaAlloc) (hirq : h.irq = dev.irq)
    (hpool : h.pool = (env.poolCreate && decide (env.poolAdd = 0)))
    (hminbus : h.minbus = (busRange env.cardType).1)
    (hmaxbus : h.maxbus = (busRange env.cardType).2) (hi2c : h.i2cbuses = true) :
    tl880Unconfigure h = (env.released dev).map .release := by
  have hadapters : (List.range' h.minbus (h.maxbus + 1 - h.minbus)).map
      (fun i => Op.release (Resource.adapter (i - h.minbus))) =
        (env.adapters fun _ => true).map .release := by
    have hall := List.filter_true (List.range (h.maxbus + 1 - h.minbus))
    rw [ProbeEnv.adapters, ← hminbus, ← hmaxbus, hall, ← range'_sub h.minbus]
    simp [Function.comp_def]
  simp only [tl880Unconfigure, tl880DeinitI2c, tl880DeinitMemory, tl880DeleteDev, releaseIf_eq,
    ProbeEnv.released, List.map_append, hadapters, hspaces, hdma, hirq, hpool, hi2c,
    List.append_assoc]
  rfl

/-- What is held before the pool of the card's memory is made. -/
def ProbeEnv.heldBefore (env : ProbeEnv) : List Resource :=
  [.device] ++ ifOwned (env.ioremap .mem) (.mapping .mem) ++
    ifOwned (env.ioremap .reg) (.mapping .reg) ++ ifOwned (env.ioremap .unk) (.mapping .unk) ++
    ifOwned env.dmaAlloc .dmaBuffer ++ [.charDevice, .irqHandler]

/-- The ledger of the pool: one that cannot be filled is destroyed again. -/
def ProbeEnv.poolOps (env : ProbeEnv) : List (Op Resource) :=
  if env.poolCreate = false then []
  else if env.poolAdd ≠ 0 then [.acquire .pool, .release .pool]
  else [.acquire .pool]

theorem settle_poolOps (env : ProbeEnv) (held : List Resource) :
    settle held env.poolOps =
      some ((ifOwned (env.poolCreate && decide (env.poolAdd = 0)) .pool).reverse ++ held) := by
  unfold ProbeEnv.poolOps
  split_ifs with hcreate hadd
  · simp [hcreate, ifOwned, settle]
  · simp [hadd, ifOwned, settle]
  · have hcreated : env.poolCreate = true := by simpa using hcreate
    have hadded : env.poolAdd = 0 := by simpa using hadd
    simp [hcreated, hadded, ifOwned, settle]

/-- A probed card: its fields, and the ledger that led to them. -/
structure ProbedCard (env : ProbeEnv) (dev : PciDev) (p : Probe) : Prop where
  spaces : p.handles.spaces = env.ioremap
  dmavirt : p.handles.dmavirt = env.dmaAlloc
  irq : p.handles.irq = dev.irq
  pool : p.handles.pool = (env.poolCreate && decide (env.poolAdd = 0))
  minbus : p.handles.minbus = (busRange env.cardType).1
  maxbus : p.handles.maxbus = (busRange env.cardType).2
  i2cbuses : p.handles.i2cbuses = true
  ops : p.ops = env.heldBefore.map .acquire ++ env.poolOps ++
    ([Resource.i2cbuses] ++
      env.adapters fun busno => decide (env.addBus busno = 0)).map .acquire

theorem tl880InitMemory_eq (env : ProbeEnv) (p : Probe) (hpool : p.handles.pool = false) :
    tl880InitMemory env p =
      ⟨{ p.handles with pool := env.poolCreate && decide (env.poolAdd = 0) },
        p.ops ++ env.poolOps⟩ := by
  unfold tl880InitMemory ProbeEnv.poolOps
  split_ifs with hcreate hadd
  · rw [hcreate, Bool.false_and, ← hpool, List.append_nil]
  · rw [decide_eq_false hadd, Bool.and_false, ← hpool]
  · have hcreated : env.poolCreate = true := by simpa using hcreate
    rw [hcreated, decide_eq_true (not_not.mp hadd), Bool.true_and]

/-- The three regions that are mapped one after another. -/
theorem mapRegions_all {env : ProbeEnv} {dev : PciDev} {p : Probe}
    (h : mapRegions env dev [.mem, .reg, .unk] ⟨DevHandles.created, [.acquire .device]⟩ =
      (p, true)) :
    p = ⟨{ DevHandles.created with spaces := env.ioremap },
      [.acquire .device] ++ acquireIf (env.ioremap .mem) (.mapping .mem) ++
        acquireIf (env.ioremap .reg) (.mapping .reg) ++
        acquireIf (env.ioremap .unk) (.mapping .unk)⟩ := by
  simp only [mapRegions] at h
  split_ifs at h
  · simp at h
  · simp at h
  · simp at h
  · have hspaces : Function.update (Function.update (Function.update DevHandles.created.spaces .mem
        (env.ioremap .mem)) .reg (env.ioremap .reg)) .unk (env.ioremap .unk) = env.ioremap := by
      ext maptype
      cases maptype <;> simp [Function.update]
    rw [hspaces] at h
    exact (Prod.ext_iff.mp h).1.symm

theorem probedCard_spec {env : ProbeEnv} {dev : PciDev} {p : Probe}
    (h : probedCard env dev = some p) : ProbedCard env dev p := by
  unfold probedCard at h
  by_cases hearly : env.createDev = false ∨ env.setDmaMask ≠ 0
  · rw [if_pos hearly] at h
    simp at h
  rw [if_neg hearly] at h
  split at h
  · simp at h
  · rename_i mapped hmapped
    by_cases hlate : env.cdevAlloc = false ∨ env.requestIrq ≠ 0
    · rw [if_pos hlate] at h
      simp at h
    rw [if_neg hlate] at h
    have hall := mapRegions_all hmapped
    subst hall
    have hp := initAdapters_eq h
    rw [tl880InitMemory_eq env _ rfl] at hp
    subst hp
    refine ⟨rfl, rfl, rfl, rfl, rfl, rfl, rfl, ?_⟩
    simp only [acquireIf_eq, ProbeEnv.heldBefore, List.map_append, List.append_assoc]
    rfl

/-- What the probe holds in the end. -/
theorem settle_probedCard {env : ProbeEnv} {dev : PciDev} {p : Probe}
    (h : ProbedCard env dev p) : settle [] p.ops = some env.held.reverse := by
  have hbefore := settle_acquires [] env.heldBefore
  have hpool := settle_poolOps env (env.heldBefore.reverse ++ [])
  rw [h.ops, List.append_assoc, settle_append hbefore, settle_append hpool, settle_acquires]
  simp only [ProbeEnv.held, ProbeEnv.heldBefore, List.reverse_append, List.append_assoc,
    List.append_nil]

/-- A probe that returns 0 has made a card by these steps. -/
theorem tl880Configure_probedCard {env : ProbeEnv} {ptr : U64} {dev : PciDev} {s : Driver}
    {r : ProbeResult} (hr : tl880Configure env ptr dev s = some r) (hret : r.ret = 0) :
    ∃ p, probedCard env dev = some p ∧ r.ops = p.ops := by
  unfold tl880Configure at hr
  unfold probedCard
  split_ifs at hr with hcreate hmask
  · cases hr
    contradiction
  · cases hr
    exact absurd hret hmask
  · rw [if_neg (not_or.mpr ⟨hcreate, hmask⟩)]
    generalize mapRegions env dev [.mem, .reg, .unk] _ = regions at hr ⊢
    obtain ⟨mapped, all⟩ := regions
    cases all with
    | false =>
        cases hr
        contradiction
    | true =>
        simp only [configureMapped] at hr ⊢
        split_ifs at hr with hcdev hirq
        · cases hr
          exact absurd hret hirq
        · rw [if_neg (not_or.mpr ⟨hcdev, hirq⟩)]
          obtain ⟨p, hp, rfl⟩ := Option.map_eq_some_iff.mp hr
          exact ⟨p, hp, rfl⟩

/-! ## The audio and the PCI device -/

/-- What the audio of a probed card owns. -/
def LifeEnv.audioHeld (env : LifeEnv) (pool : Bool) : List CardResource :=
  if pool && env.audioBlock then
    .audioBlock :: if env.iecAlloc then [.iecBuf] else []
  else []

/-- It is acquired in the probe, ... -/
theorem initDevAudio_ops (env : LifeEnv) (pool : Bool) :
    (initDevAudio env pool .created).2 = (env.audioHeld pool).map .acquire := by
  unfold initDevAudio initHardwareAudio LifeEnv.audioHeld
  cases pool && env.audioBlock <;> cases env.iecAlloc <;> rfl

/-- ... and released in the removal. -/
theorem initDevAudio_release (env : LifeEnv) (pool : Bool) :
    (initDevAudio env pool .created).1.release = (env.audioHeld pool).map .release := by
  unfold initDevAudio initHardwareAudio LifeEnv.audioHeld
  cases pool && env.audioBlock <;> cases env.iecAlloc <;> rfl

theorem configured_injective : Function.Injective CardResource.configured := by
  intro r r' h
  exact CardResource.configured.inj h

/-- What a probed card holds in the end. -/
theorem settle_tl880Probe {env : LifeEnv} {dev : PciDev} {p : Probe}
    (h : ProbedCard env.configure dev p) :
    settle [] (.acquire .pciDevice :: p.ops.map (Op.map CardResource.configured) ++
        (env.audioHeld p.handles.pool).map .acquire) =
      some ((env.audioHeld p.handles.pool).reverse ++
        (env.configure.held.reverse.map CardResource.configured ++ [.pciDevice])) := by
  have hother (r : Resource) : CardResource.configured r ∉ [CardResource.pciDevice] := by
    simp
  have hcard := settle_map configured_injective hother [] p.ops
  rw [settle_probedCard h] at hcard
  rw [List.cons_append, settle]
  exact (settle_append hcard).trans (settle_acquires _ _)

/-- The removal releases all of that but for the PCI device exactly when it releases what
`tl880_configure` has acquired in its own code. -/
theorem settle_removeCard_iff (env : LifeEnv) (dev : PciDev) (audio : List CardResource) :
    settle (audio.reverse ++
          (env.configure.held.reverse.map CardResource.configured ++ [.pciDevice]))
        ((audio ++ (env.configure.released dev).map CardResource.configured).map .release) =
          some [.pciDevice] ↔
      env.configure.held.Perm (env.configure.released dev) := by
  rw [settle_releases_left_iff, List.append_assoc,
    (List.reverse_perm audio).append_right _ |>.congr_left, List.perm_append_left_iff,
    List.perm_append_right_iff, List.map_perm_map_iff configured_injective,
    (List.reverse_perm _).congr_left]

/-- What a removal releases of a probed card. -/
theorem removeCard_probed {env : LifeEnv} {dev : PciDev} {p : Probe}
    (h : ProbedCard env.configure dev p) :
    removeCard p.handles (initDevAudio env p.handles.pool .created).1 =
      (env.audioHeld p.handles.pool ++
        (env.configure.released dev).map CardResource.configured).map .release := by
  have hreturned := tl880Unconfigure_returned h.spaces h.dmavirt h.irq h.pool h.minbus h.maxbus
    h.i2cbuses
  rw [removeCard, initDevAudio_release, hreturned, List.map_append, List.map_map, List.map_map]
  rfl

/-- A probe that returns 0 has enabled the PCI device, configured the card and set up its
audio. -/
theorem tl880Probe_eq {env : LifeEnv} {ptr : U64} {dev : PciDev} {s : Driver} {r : LifeResult}
    (hr : tl880Probe env ptr dev s = some r) (hret : r.ret = 0) :
    ∃ p, probedCard env.configure dev = some p ∧
      r.ops = .acquire .pciDevice :: p.ops.map (Op.map CardResource.configured) ++
        (env.audioHeld p.handles.pool).map .acquire := by
  unfold tl880Probe at hr
  split_ifs at hr with henable
  · cases hr
    exact absurd hret henable
  · obtain ⟨configured, hconfigured, rfl⟩ := Option.map_eq_some_iff.mp hr
    obtain ⟨p, hp, hops⟩ := tl880Configure_probedCard hconfigured hret
    refine ⟨p, hp, ?_⟩
    simp only [hp, hops, initDevAudio_ops]

/-- No removal disables the PCI device. -/
theorem pciDevice_not_released (h : DevHandles) (audio : AudioHandles) :
    (removeCard h audio).count (.release .pciDevice) = 0 := by
  rw [List.count_eq_zero, removeCard, List.mem_append, not_or]
  constructor
  · simp [AudioHandles.release, releaseIf]
  · intro hmem
    obtain ⟨op, -, hop⟩ := List.mem_map.mp hmem
    cases op <;> simp [Op.map] at hop

end Tl880
