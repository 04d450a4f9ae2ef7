import Tl880.Lib.Ledger
import Tl880.CardList
import Tl880.I2cClients

/-!
# Probing a card

The model of `tl880_configure` and of everything it and its error paths acquire
and release: `tl880_unconfigure`, `tl880_delete_dev`, `tl880_init_memory`,
`tl880_deinit_memory` and the bus array and adapters of `tl880_init_i2c` and
`tl880_deinit_i2c`.  What the kernel answers is given by a `ProbeEnv`; each call
that acquires or releases something is an entry of a ledger, whether or not the
kernel survives it.  Accesses to the card itself are left out, and so are
`cdev_add` and `pci_read_config_byte`, whose failure is only printed.

The error paths that call `tl880_unconfigure` call `tl880_delete_dev` after it,
which `tl880_unconfigure` has already done.
-/

namespace Tl880

open Ledger

/-! ## What a card owns -/

/-- What a probe can acquire. -/
inductive Resource
  /-- the `struct tl880_dev` -/
  | device
  | mapping (maptype : MapType)
  | dmaBuffer
  | charDevice
  | irqHandler
  | pool
  | i2cbuses
  | adapter (busno : Nat)
  deriving DecidableEq

/-- The fields of `struct tl880_dev` that are looked at before something is
released; a pointer is whether it is not NULL. -/
structure DevHandles where
  spaces : MapType → Bool
  dmavirt : Bool
  charDevice : Bool
  irq : U32
  pool : Bool
  minbus : Nat
  maxbus : Nat
  i2cbuses : Bool

/-- The fields as `tl880_create_dev` sets them. -/
def DevHandles.created : DevHandles where
  spaces := fun _ => false
  dmavirt := false
  charDevice := false
  irq := 0
  pool := false
  minbus := 0
  maxbus := 0
  i2cbuses := false

/-- What the kernel answers during a probe: whether an allocation succeeds, and what
a call returns. -/
structure ProbeEnv where
  createDev : Bool
  setDmaMask : Int
  ioremap : MapType → Bool
  dmaAlloc : Bool
  cdevAlloc : Bool
  requestIrq : Int
  poolCreate : Bool
  poolAdd : Int
  busesAlloc : Bool
  addBus : Nat → Int
  /-- the card type that is detected -/
  cardType : U16

/-- A probe under way: the card's fields and the ledger so far. -/
structure Probe where
  handles : DevHandles
  ops : List (Op Resource)

/-- The end of a probe. -/
structure ProbeResult where
  ret : Int
  driver : Driver
  ops : List (Op Resource)

/-! ## Releasing -/

/-- `tl880_delete_dev`.  The callback lists of a card that is being probed are empty. -/
def tl880DeleteDev : List (Op Resource) := [.release .device]

/-- `tl880_deinit_i2c` -/
def tl880DeinitI2c (h : DevHandles) : List (Op Resource) :=
  (List.range' h.minbus (h.maxbus + 1 - h.minbus)).map
      (fun i => .release (.adapter (i - h.minbus))) ++
    releaseIf h.i2cbuses .i2cbuses

/-- `tl880_deinit_memory` -/
def tl880DeinitMemory (h : DevHandles) : List (Op Resource) := releaseIf h.pool .pool

/-- `tl880_unconfigure` -/
def tl880Unconfigure (h : DevHandles) : List (Op Resource) :=
  [.release .charDevice] ++
    releaseIf (h.irq ≠ 0) .irqHandler ++
    tl880DeinitI2c h ++
    releaseIf (h.spaces .mem) (.mapping .mem) ++
    releaseIf (h.spaces .reg) (.mapping .reg) ++
    releaseIf (h.spaces .unk) (.mapping .unk) ++
    releaseIf h.dmavirt .dmaBuffer ++
    tl880DeinitMemory h ++
    tl880DeleteDev

/-! ## Acquiring -/

/-- Map the regions in turn, and stop behind one of length zero. -/
def mapRegions (env : ProbeEnv) (dev : PciDev) : List MapType → Probe → Probe × Bool
  | [], p => (p, true)
  | maptype :: rest, p =>
      let p : Probe := {
        handles := { p.handles with
          spaces := Function.update p.handles.spaces maptype (env.ioremap maptype) }
        ops := p.ops ++ acquireIf (env.ioremap maptype) (.mapping maptype) }
      if (dev.resource maptype).len = 0 then (p, false) else mapRegions env dev rest p

/-- `tl880_init_memory` -/
def tl880InitMemory (env : ProbeEnv) (p : Probe) : Probe :=
  if env.poolCreate = false then p
  else if env.poolAdd ≠ 0 then { p with ops := p.ops ++ [.acquire .pool, .release .pool] }
  else { handles := { p.handles with pool := true }, ops := p.ops ++ [.acquire .pool] }

/-- The bus array and the adapters of `tl880_init_i2c`; `none` when it writes through
a NULL array. -/
def initAdapters (env : ProbeEnv) (p : Probe) : Option Probe :=
  if env.busesAlloc = false then none
  else
    let (minbus, maxbus) := busRange env.cardType
    some {
      handles := { p.handles with minbus := minbus, maxbus := maxbus, i2cbuses := true }
      ops := p.ops ++ [.acquire .i2cbuses] ++
        (List.range' minbus (maxbus + 1 - minbus)).flatMap fun i =>
          acquireIf (env.addBus (i - minbus) = 0) (.adapter (i - minbus)) }

/-- `ENOMEM` -/
def enomem : Int := 12

/-- An error path through `tl880_unconfigure`. -/
def unconfigureAndDelete (ret : Int) (s : Driver) (p : Probe) : ProbeResult :=
  ⟨ret, s, p.ops ++ tl880Unconfigure p.handles ++ tl880DeleteDev⟩

/-- `tl880_configure` from the allocation of the DMA buffer on. -/
def configureMapped (env : ProbeEnv) (ptr : U64) (dev : PciDev) (s : Driver) (p : Probe) :
    Option ProbeResult :=
  let p : Probe := {
    handles := { p.handles with dmavirt := env.dmaAlloc }
    ops := p.ops ++ acquireIf env.dmaAlloc .dmaBuffer }
  -- `cdev_alloc` is not checked before its result is written to
  if env.cdevAlloc = false then none
  else
    let p : Probe := {
      handles := { p.handles with charDevice := true, irq := dev.irq }
      ops := p.ops ++ [.acquire .charDevice] }
    if env.requestIrq ≠ 0 then some (unconfigureAndDelete env.requestIrq s p)
    else
      let p : Probe := { p with ops := p.ops ++ [.acquire .irqHandler] }
      (initAdapters env (tl880InitMemory env p)).map fun p =>
        ⟨0, linkCard (newCard ptr dev s.nTl880s) s, p.ops⟩

/-- `tl880_configure`; `none` when it writes through a NULL pointer. -/
def tl880Configure (env : ProbeEnv) (ptr : U64) (dev : PciDev) (s : Driver) :
    Option ProbeResult :=
  if env.createDev = false then some ⟨-enomem, s, []⟩
  else if env.setDmaMask ≠ 0 then
    some ⟨env.setDmaMask, s, [.acquire .device] ++ tl880DeleteDev⟩
  else
    -- the length of a region is tested after it has been mapped
    match mapRegions env dev [.mem, .reg, .unk] ⟨DevHandles.created, [.acquire .device]⟩ with
    | (p, false) => some (unconfigureAndDelete (-enodev) s p)
    | (p, true) => configureMapped env ptr dev s p

/-! ## A failed probe -/

/-- A failed probe has released exactly what it acquired and left the driver's
variables alone. -/
def ProbeResult.CleanFailure (s : Driver) (r : ProbeResult) : Prop :=
  r.ret ≠ 0 → Clean r.ops ∧ r.driver = s

/-- What a probe needs for its failure to be clean: it fails before anything but the
structure was acquired, or it does not fail. -/
def ProbeEnv.FailsClean (env : ProbeEnv) (dev : PciDev) : Prop :=
  env.createDev = false ∨ env.setDmaMask ≠ 0 ∨
    ((∀ maptype, (dev.resource maptype).len ≠ 0) ∧
      (env.cdevAlloc = false ∨ env.requestIrq = 0))

/-- The structure has been acquired once and not been released. -/
def Probe.HoldsDevice (p : Probe) : Prop :=
  p.ops.count (.acquire .device) = 1 ∧ p.ops.count (.release .device) = 0

/-- A ledger entry that is not about the structure. -/
def notDevice : Op Resource → Prop
  | .acquire r => r ≠ .device
  | .release r => r ≠ .device

/-- Entries about other resources leave the structure held. -/
theorem Probe.HoldsDevice.append {p : Probe} (h : p.HoldsDevice) {ops : List (Op Resource)}
    (hops : ∀ op ∈ ops, notDevice op) (handles : DevHandles) :
    (⟨handles, p.ops ++ ops⟩ : Probe).HoldsDevice := by
  have hacquire : (.acquire .device : Op Resource) ∉ ops := fun hmem => hops _ hmem rfl
  have hrelease : (.release .device : Op Resource) ∉ ops := fun hmem => hops _ hmem rfl
  unfold Probe.HoldsDevice
  dsimp only
  rw [List.count_append, List.count_append, List.count_eq_zero_of_not_mem hacquire,
    List.count_eq_zero_of_not_mem hrelease]
  exact h

theorem notDevice_acquireIf (succeeds : Bool) {r : Resource} (hne : r ≠ .device) :
    ∀ op ∈ acquireIf succeeds r, notDevice op := by
  intro op hop
  cases succeeds with
  | false => cases hop
  | true =>
      rw [List.mem_singleton.mp hop]
      exact hne

theorem notDevice_releaseIf {held : Bool} {r : Resource} {op : Op Resource}
    (hop : op ∈ releaseIf held r) (hne : r ≠ .device) : notDevice op := by
  cases held with
  | false => cases hop
  | true =>
      rw [List.mem_singleton.mp hop]
      exact hne

theorem mapRegions_holdsDevice (env : ProbeEnv) (dev : PciDev) (maptypes : List MapType)
    {p : Probe} (h : p.HoldsDevice) : (mapRegions env dev maptypes p).1.HoldsDevice := by
  induction maptypes generalizing p with
  | nil => exact h
  | cons maptype rest ih =>
      have hnext := h.append (notDevice_acquireIf (env.ioremap maptype)
        (r := .mapping maptype) nofun) { p.handles with
          spaces := Function.update p.handles.spaces maptype (env.ioremap maptype) }
      unfold mapRegions
      dsimp only
      split_ifs
      · exact hnext
      · exact ih hnext

/-- The mapping stops early exactly when some region has length zero. -/
theorem mapRegions_complete_iff (env : ProbeEnv) (dev : PciDev) (maptypes : List MapType)
    (p : Probe) :
    (mapRegions env dev maptypes p).2 = true ↔
      ∀ maptype ∈ maptypes, (dev.resource maptype).len ≠ 0 := by
  induction maptypes generalizing p with
  | nil => simp [mapRegions]
  | cons maptype rest ih =>
      unfold mapRegions
      dsimp only
      rw [List.forall_mem_cons]
      split_ifs with hlen
      · exact iff_of_false (by simp) fun h => h.1 hlen
      · rw [ih]
        exact ⟨fun h => ⟨hlen, h⟩, fun h => h.2⟩

/-- `tl880_unconfigure` frees the structure, after everything else. -/
theorem tl880Unconfigure_eq (h : DevHandles) :
    ∃ ops, tl880Unconfigure h = ops ++ tl880DeleteDev ∧ ∀ op ∈ ops, notDevice op := by
  have hadapters : ∀ op ∈ tl880DeinitI2c h, notDevice op := by
    intro op hop
    rcases List.mem_append.mp hop with hop | hop
    · obtain ⟨i, -, rfl⟩ := List.mem_map.mp hop
      nofun
    · exact notDevice_releaseIf hop nofun
  refine ⟨_, rfl, fun op hop => ?_⟩
  simp only [List.mem_append, List.mem_singleton] at hop
  rcases hop with ((((((rfl | hop) | hop) | hop) | hop) | hop) | hop) | hop
  · nofun
  · exact notDevice_releaseIf hop nofun
  · exact hadapters op hop
  · exact notDevice_releaseIf hop nofun
  · exact notDevice_releaseIf hop nofun
  · exact notDevice_releaseIf hop nofun
  · exact notDevice_releaseIf hop nofun
  · exact notDevice_releaseIf (r := .pool) hop nofun

/-- The error paths through `tl880_unconfigure` free the structure twice. -/
theorem unconfigureAndDelete_not_clean {p : Probe} (h : p.HoldsDevice) (ret : Int)
    (s : Driver) : ¬ Clean (unconfigureAndDelete ret s p).ops := by
  intro hclean
  obtain ⟨ops, hops, hother⟩ := tl880Unconfigure_eq p.handles
  obtain ⟨hacquired, hreleased⟩ := h.append hother p.handles
  have hledger : (unconfigureAndDelete ret s p).ops =
      (p.ops ++ ops) ++ (tl880DeleteDev ++ tl880DeleteDev) := by
    simp [unconfigureAndDelete, hops]
  have hcount (op : Op Resource) : (unconfigureAndDelete ret s p).ops.count op =
      (p.ops ++ ops).count op + (tl880DeleteDev ++ tl880DeleteDev).count op := by
    rw [hledger]
    exact List.count_append
  have hbalance := hclean.count_eq .device
  change (p.ops ++ ops).count _ = 1 at hacquired
  change (p.ops ++ ops).count _ = 0 at hreleased
  rw [hcount, hcount, hacquired, hreleased] at hbalance
  contradiction

theorem created_holdsDevice :
    (⟨DevHandles.created, [.acquire .device]⟩ : Probe).HoldsDevice := ⟨rfl, rfl⟩

/-- The only failure behind the mappings is that of `request_irq`. -/
theorem configureMapped_cleanFailure_iff (env : ProbeEnv) (ptr : U64) (dev : PciDev)
    (s : Driver) {p : Probe} (h : p.HoldsDevice) :
    (∀ r, configureMapped env ptr dev s p = some r → r.CleanFailure s) ↔
      env.cdevAlloc = false ∨ env.requestIrq = 0 := by
  have hdma := h.append (notDevice_acquireIf env.dmaAlloc (r := .dmaBuffer) nofun)
    { p.handles with dmavirt := env.dmaAlloc }
  have hother : ∀ op ∈ [Op.acquire Resource.charDevice], notDevice op := by
    intro op hop
    rw [List.mem_singleton.mp hop]
    nofun
  have hcdev := hdma.append hother
    { p.handles with dmavirt := env.dmaAlloc, charDevice := true, irq := dev.irq }
  unfold configureMapped
  dsimp only
  split_ifs with hcdevAlloc hirq
  · exact iff_of_true nofun (Or.inl hcdevAlloc)
  · refine iff_of_false (fun hclean => ?_) (not_or.mpr ⟨hcdevAlloc, hirq⟩)
    exact unconfigureAndDelete_not_clean hcdev _ _ (hclean _ rfl hirq).1
  · refine iff_of_true (fun r hr hret => ?_) (Or.inr (not_not.mp hirq))
    obtain ⟨p', -, rfl⟩ := Option.map_eq_some_iff.mp hr
    exact absurd rfl hret

/-- A failed probe releases exactly what it acquired if and only if it fails before
anything but the structure was acquired, or does not fail. -/
theorem tl880Configure_cleanFailure_iff (env : ProbeEnv) (ptr : U64) (dev : PciDev)
    (s : Driver) :
    (∀ r, tl880Configure env ptr dev s = some r → r.CleanFailure s) ↔ env.FailsClean dev := by
  have hmapped := mapRegions_holdsDevice env dev [.mem, .reg, .unk] created_holdsDevice
  have hcomplete := mapRegions_complete_iff env dev [.mem, .reg, .unk]
    ⟨DevHandles.created, [.acquire .device]⟩
  have hall : (∀ maptype ∈ [MapType.mem, .reg, .unk], (dev.resource maptype).len ≠ 0) ↔
      ∀ maptype, (dev.resource maptype).len ≠ 0 := by
    refine ⟨fun h maptype => ?_, fun h maptype _ => h maptype⟩
    cases maptype <;> exact h _ (by decide)
  rw [hall] at hcomplete
  unfold tl880Configure ProbeEnv.FailsClean
  split_ifs with hcreate hmask
  · refine iff_of_true (fun r hr _ => ?_) (Or.inl hcreate)
    cases hr
    exact ⟨rfl, rfl⟩
  · refine iff_of_true (fun r hr _ => ?_) (Or.inr (Or.inl hmask))
    cases hr
    exact ⟨rfl, rfl⟩
  · rw [or_iff_right hcreate, or_iff_right hmask]
    cases hregions : mapRegions env dev [.mem, .reg, .unk]
        ⟨DevHandles.created, [.acquire .device]⟩ with
    | mk p complete =>
        rw [hregions] at hmapped hcomplete
        cases complete with
        | false =>
            refine iff_of_false (fun hclean => ?_) fun h => ?_
            · have herror : -enodev ≠ 0 := by decide
              exact unconfigureAndDelete_not_clean hmapped _ _ (hclean _ rfl herror).1
            · exact Bool.false_ne_true (hcomplete.mpr h.1)
        | true =>
            rw [and_iff_right (hcomplete.mp rfl)]
            exact configureMapped_cleanFailure_iff env ptr dev s hmapped

/-- A device whose memory BAR has length zero, on a kernel that grants everything
else: the structure is freed twice, and a character device and an I2C adapter are
released that were never acquired. -/
theorem tl880Configure_frees_twice :
    let env : ProbeEnv := ⟨true, 0, fun _ => true, true, true, 0, true, 0, true, fun _ => 0, 5⟩
    let device : PciDev := ⟨1, "0000:01:00.0", ⟨0xe0000000, 0, by decide⟩,
      ⟨0xe1000000, 0x100000, by decide⟩, ⟨0xe1100000, 0x10000, by decide⟩, 11⟩
    ¬ ∀ r, tl880Configure env 100 device ⟨[], 0⟩ = some r → r.CleanFailure ⟨[], 0⟩ := by
  intro env device h
  have hclean := (h ⟨-19, ⟨[], 0⟩, [.acquire .device, .acquire (.mapping .mem),
    .release .charDevice, .release (.adapter 0), .release (.mapping .mem),
    .release .device, .release .device]⟩ rfl (by decide)).1
  exact absurd hclean (by decide)

end Tl880
