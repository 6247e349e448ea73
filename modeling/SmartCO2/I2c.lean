import SmartCO2.Scd41

/-!
# The I2C Bus

The model of `i2c_.c` and `LED_driver.c` as far as the bus sees them. `I2C_Read`, `I2C_WriteCmd`
and `I2C_WriteCmdArgs` each make one transfer, to the address byte of their slave. The last one
copies the command and its arguments into one buffer on the stack first.

## Main results

* `i2cWriteCmdArgs_eq`: the buffer is sent as the command followed by its arguments, whatever was
  on the stack.
* `ledUpdateValue_eq`: so the registers of the LED driver are written with their values.
-/

namespace SmartCO2

/-! ### Transfers -/

/-- A transfer that `I2C_TransferInit` starts: its address byte, and the bytes written or the
number of bytes to be read. -/
inductive BusTransfer
  | write (addr : UInt8) (data : List UInt8)
  | read (addr : UInt8) (numBytes : ℕ)
  deriving DecidableEq, Repr

/-- The address byte of a write. -/
def writeAddress (slaveAddress : UInt8) : UInt8 := slaveAddress <<< 1

/-- The address byte of a read. -/
def readAddress (slaveAddress : UInt8) : UInt8 := (slaveAddress <<< 1) ||| 1

/-- The transfer of `I2C_Read`. -/
def readTransfer (slaveAddress : UInt8) (numBytes : ℕ) : BusTransfer :=
  .read (readAddress slaveAddress) numBytes

/-- The transfer of `I2C_WriteCmd`. -/
def writeCmdTransfer (slaveAddress : UInt8) (writeCmd : List UInt8) (numBytesCmd : ℕ) :
    BusTransfer :=
  .write (writeAddress slaveAddress) (writeCmd.take numBytesCmd)

/-! ### Writing a command with arguments -/

/-- `for (int i = start; i < start + n; i++) txBuffer[i] = source[i - start]`, without a defined
behaviour outside the two arrays. -/
def copyLoop (source : List UInt8) (start : ℕ) : ℕ → List UInt8 → Option (List UInt8)
  | 0, txBuffer => some txBuffer
  | n + 1, txBuffer => do
      let txBuffer ← copyLoop source start n txBuffer
      let byte ← source[n]?
      if start + n < txBuffer.length then some (txBuffer.set (start + n) byte) else none

/-- `I2C_WriteCmdArgs`: `stack` is what the bytes of `txBuffer` are before they are written. -/
def i2cWriteCmdArgs (slaveAddress : UInt8) (writeCmd settingValue : List UInt8)
    (numBytesCmd numBytesData : ℕ) (stack : ℕ → UInt8) : Option BusTransfer := do
  let txBuffer := (List.range (numBytesCmd + numBytesData)).map stack
  let txBuffer ← copyLoop writeCmd 0 numBytesCmd txBuffer
  let txBuffer ← copyLoop settingValue numBytesCmd numBytesData txBuffer
  some (.write (writeAddress slaveAddress) (txBuffer.take (numBytesCmd + numBytesData)))

/-- The loop copies the first bytes of its source and leaves the other bytes alone. -/
theorem copyLoop_eq {source txBuffer : List UInt8} {start n : ℕ} (hsource : n ≤ source.length)
    (htx : start + n ≤ txBuffer.length) :
    copyLoop source start n txBuffer =
      some (txBuffer.take start ++ source.take n ++ txBuffer.drop (start + n)) := by
  induction n with
  | zero => simp [copyLoop]
  | succ n ih =>
      have hn : n < source.length := by omega
      have hcopied : (txBuffer.take start ++ source.take n).length = start + n := by
        rw [List.length_append, List.length_take, List.length_take]
        omega
      have hrest : start + n < txBuffer.length := by omega
      have hlength : start + n < (txBuffer.take start ++ source.take n ++
          txBuffer.drop (start + n)).length := by
        rw [List.length_append, hcopied, List.length_drop]
        omega
      simp only [copyLoop, ih (by omega) (by omega), Option.bind_eq_bind, Option.bind_some,
        List.getElem?_eq_getElem hn, if_pos hlength]
      rw [List.set_append_right _ _ hcopied.le, hcopied, Nat.sub_self,
        List.drop_eq_getElem_cons hrest, List.set_cons_zero, List.append_assoc, List.append_assoc,
        List.take_succ_eq_append_getElem hn, List.append_assoc]
      rfl

/-- **A command with arguments**: the bytes of the command are sent, then those of its arguments,
whatever was on the stack. -/
theorem i2cWriteCmdArgs_eq {slaveAddress : UInt8} {writeCmd settingValue : List UInt8}
    {numBytesCmd numBytesData : ℕ} (hcmd : numBytesCmd ≤ writeCmd.length)
    (hdata : numBytesData ≤ settingValue.length) (stack : ℕ → UInt8) :
    i2cWriteCmdArgs slaveAddress writeCmd settingValue numBytesCmd numBytesData stack =
      some (.write (writeAddress slaveAddress)
        (writeCmd.take numBytesCmd ++ settingValue.take numBytesData)) := by
  obtain ⟨tx, htx⟩ : ∃ tx, (List.range (numBytesCmd + numBytesData)).map stack = tx := ⟨_, rfl⟩
  have hlength : tx.length = numBytesCmd + numBytesData := by
    rw [← htx, List.length_map, List.length_range]
  have hcopied : (writeCmd.take numBytesCmd).length = numBytesCmd := List.length_take_of_le hcmd
  have hfirst : copyLoop writeCmd 0 numBytesCmd tx =
      some (writeCmd.take numBytesCmd ++ tx.drop numBytesCmd) := by
    rw [copyLoop_eq hcmd (by omega), List.take_zero, List.nil_append, Nat.zero_add]
  have hfull : (writeCmd.take numBytesCmd ++ tx.drop numBytesCmd).length =
      numBytesCmd + numBytesData := by
    rw [List.length_append, List.length_drop, hcopied, hlength]
    omega
  have hsecond :
      copyLoop settingValue numBytesCmd numBytesData
          (writeCmd.take numBytesCmd ++ tx.drop numBytesCmd) =
        some (writeCmd.take numBytesCmd ++ settingValue.take numBytesData) := by
    rw [copyLoop_eq hdata hfull.ge, List.take_append_of_le_length hcopied.ge, List.take_take,
      Nat.min_self, List.drop_eq_nil_of_le hfull.le, List.append_nil]
  have hsent : (writeCmd.take numBytesCmd ++ settingValue.take numBytesData).length ≤
      numBytesCmd + numBytesData := by
    rw [List.length_append, hcopied, List.length_take_of_le hdata]
  simp only [i2cWriteCmdArgs, htx, hfirst, hsecond, Option.bind_eq_bind, Option.bind_some,
    List.take_of_length_le hsent]

/-! ### The LED driver -/

/-- `LED_ADDRESS` -/
def ledAddress : UInt8 := 0x54

/-- `I2C_WriteCmdArgs` of one byte to one register of the LED driver. -/
def ledWrite (register value : UInt8) (stack : ℕ → UInt8) : Option BusTransfer :=
  i2cWriteCmdArgs ledAddress [register] [value] 1 1 stack

/-- The registers that `LEDUpdateValue` writes, with their values: it resets the driver, switches
it on, enables all channels, drives six of them and applies all. -/
def ledRegisters (color : UInt8) : List (UInt8 × UInt8) :=
  let driveCurrent := 0x32
  let channels : List UInt8 :=
    if color = 1 then [0x03, 0x06, 0x09, 0x0C, 0x0F, 0x12]
    else if color = 2 then [0x02, 0x05, 0x08, 0x0B, 0x0E, 0x11]
    else []
  [(0x17, 0x00), (0x00, 0x01), (0x13, 0xFF), (0x14, 0xFF), (0x15, 0xFF)] ++
    channels.map (fun channel => (channel, driveCurrent)) ++ [(0x16, 0x00)]

/-- The transfers of `LEDUpdateValue`. -/
def ledUpdateValue (color : UInt8) (stack : ℕ → UInt8) : Option (List BusTransfer) :=
  (ledRegisters color).mapM fun r => ledWrite r.1 r.2 stack

/-- Each register is written with its number and its value. -/
theorem ledUpdateValue_eq (color : UInt8) (stack : ℕ → UInt8) :
    ledUpdateValue color stack =
      some ((ledRegisters color).map fun r => .write (writeAddress ledAddress) [r.1, r.2]) := by
  have hwrite : ∀ r : UInt8 × UInt8,
      ledWrite r.1 r.2 stack = some (.write (writeAddress ledAddress) [r.1, r.2]) :=
    fun r => i2cWriteCmdArgs_eq le_rfl le_rfl stack
  simp only [ledUpdateValue, hwrite]
  exact List.mapM_pure

end SmartCO2
