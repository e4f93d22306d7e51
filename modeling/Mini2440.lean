import Mini2440.Lib.Transition
import Mini2440.Lib.Overlay
import Mini2440.Lib.Blocks
import Mini2440.I2c.Driver
import Mini2440.I2c.Adapter
import Mini2440.I2c.At24cxx
import Mini2440.I2c.Arbitration
import Mini2440.I2c.Flags
import Mini2440.I2c.Termination
import Mini2440.I2c.AckControl
import Mini2440.Touch.Driver
import Mini2440.Touch.Block
import Mini2440.Touch.Contacts
import Mini2440.Buttons.InputSub
import Mini2440.Buttons.CharDev
import Mini2440.Buttons.Delivery
import Mini2440.Buttons.Latest
import Mini2440.Buttons.ExclusiveOpen
import Mini2440.Buttons.SharedOpen
import Mini2440.RamBlock.Refinement
import Mini2440.Touch.Modes
import Mini2440.Touch.Positions
import Mini2440.Touch.Filter
import Mini2440.Usb.Mouse
import Mini2440.Eeprom.At24cxx
import Mini2440.Eeprom.Smbus
import Mini2440.Buttons.Sessions
import Mini2440.Unload
import Mini2440.Lib.Memory
import Mini2440.Lib.OnesComplement
import Mini2440.VirtNet.Driver
import Mini2440.VirtNet.Bounds
import Mini2440.VirtNet.Reply
import Mini2440.VirtNet.Checksum
import Mini2440.Lib.Bits
import Mini2440.Lib.History
import Mini2440.Lcd.Palette
import Mini2440.Nand.Glue
import Mini2440.Led.FirstDrv
import Mini2440.Lib.Updates
import Mini2440.Led.Programs
import Mini2440.Lib.Ledger
import Mini2440.Usb.Plug
import Mini2440.Lib.OpenDrain
import Mini2440.Eeprom.Bus
import Mini2440.Eeprom.Wired
import Mini2440.Eeprom.Stack
import Mini2440.Eeprom.Programs
import Mini2440.Lib.Debounce
import Mini2440.Buttons.Debounce
import Mini2440.Lib.Raster
import Mini2440.Lcd.FbTest
import Mini2440.Lcd.Display
import Mini2440.Buttons.Sole
import Mini2440.Buttons.Programs
import Mini2440.VirtNet.Icmp
import Mini2440.Lib.Registry
import Mini2440.Modules
import Mini2440.Touch.Slides
import Mini2440.Lcd.Commands
