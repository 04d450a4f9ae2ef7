import Tl880.Registers

/-!
# I2C transactions

The model of `tl880_i2c_read_byte_data`, `tl880_i2c_read_word_data` and
`tl880_i2c_write_word_data` of `driver/tl880i2c.c`.  What is on the other side of the bus is an
arbitrary world: `i2c_smbus_xfer` is a function that answers a request and changes the world.
-/

namespace Tl880

/-- An error number as kernel functions return it. -/
structure Errno where
  code : Int
  negative : code < 0

/-- `-EIO` -/
def Errno.eio : Errno := ⟨-5, by decide⟩

/-- `-EINVAL` -/
def Errno.einval : Errno := ⟨-22, by decide⟩

/-- A transaction with a register of an I2C chip. -/
inductive SmbusRequest
  | readByteData (addr : U16) (command : U8)
  | readWordData (addr : U16) (command : U8)
  | writeWordData (addr : U16) (command : U8) (value : U16)

/-- The outcome of a transaction: the data it read, or an error. -/
inductive SmbusReply
  | done (data : U16)
  | failed (errno : Errno)

/-- A `struct tl880_i2c_bus *`: whether it is NULL, and how its transactions go. -/
structure I2cPort (World : Type*) where
  null : Bool
  xfer : World → SmbusRequest → SmbusReply × World

variable {World : Type*}

/-- A transaction, which a NULL bus answers with `-EINVAL`. -/
def I2cPort.reply (port : I2cPort World) (w : World) (request : SmbusRequest) :
    SmbusReply × World :=
  if port.null then (.failed Errno.einval, w) else port.xfer w request

/-- A read, of which the callers get `value` of the data or an error. -/
def i2cRead (port : I2cPort World) (request : SmbusRequest) (value : U16 → Nat) (w : World) :
    Int × World :=
  if port.null then (Errno.einval.code, w)
  else
    match port.xfer w request with
    | (.failed _, w) => (Errno.eio.code, w)
    | (.done data, w) => (value data, w)

/-- A write, of which the callers get what `i2c_smbus_xfer` returns. -/
def i2cWrite (port : I2cPort World) (request : SmbusRequest) (w : World) : Int × World :=
  if port.null then (Errno.einval.code, w)
  else
    match port.xfer w request with
    | (.failed errno, w) => (errno.code, w)
    | (.done _, w) => (0, w)

/-- `tl880_i2c_read_byte_data` -/
def tl880I2cReadByteData (port : I2cPort World) (addr : U16) (command : U8) (w : World) :
    Int × World :=
  i2cRead port (.readByteData addr command) (fun data => (data.setWidth 8).toNat) w

/-- `tl880_i2c_read_word_data` -/
def tl880I2cReadWordData (port : I2cPort World) (addr : U16) (command : U8) (w : World) :
    Int × World :=
  i2cRead port (.readWordData addr command) BitVec.toNat w

/-- `tl880_i2c_write_word_data` -/
def tl880I2cWriteWordData (port : I2cPort World) (addr : U16) (command : U8) (value : U16)
    (w : World) : Int × World :=
  i2cWrite port (.writeWordData addr command value) w

/-! ## What the callers see of an outcome -/

/-- A read returns the data, or `-EIO` or `-EINVAL`. -/
theorem i2cRead_cases (port : I2cPort World) (request : SmbusRequest) (value : U16 → Nat)
    (w : World) :
    (∃ data w', port.reply w request = (.done data, w') ∧
      i2cRead port request value w = ((value data : Int), w')) ∨
    (∃ errno w' code, port.reply w request = (.failed errno, w') ∧
      i2cRead port request value w = (code, w') ∧ (code = -5 ∨ code = -22)) := by
  unfold I2cPort.reply i2cRead
  split_ifs
  · exact Or.inr ⟨_, _, _, rfl, rfl, Or.inr rfl⟩
  · cases port.xfer w request with
    | mk reply w' =>
        cases reply with
        | done data => exact Or.inl ⟨data, w', rfl, rfl⟩
        | failed errno => exact Or.inr ⟨errno, w', _, rfl, rfl, Or.inl rfl⟩

/-- A write returns 0 or a negative number. -/
theorem i2cWrite_cases (port : I2cPort World) (request : SmbusRequest) (w : World) :
    (∃ data w', port.reply w request = (.done data, w') ∧
      i2cWrite port request w = (0, w')) ∨
    (∃ errno w' code, port.reply w request = (.failed errno, w') ∧
      i2cWrite port request w = (code, w') ∧ code < 0) := by
  unfold I2cPort.reply i2cWrite
  split_ifs
  · exact Or.inr ⟨_, _, _, rfl, rfl, Errno.einval.negative⟩
  · cases port.xfer w request with
    | mk reply w' =>
        cases reply with
        | done data => exact Or.inl ⟨data, w', rfl, rfl⟩
        | failed errno => exact Or.inr ⟨errno, w', _, rfl, rfl, errno.negative⟩

end Tl880
