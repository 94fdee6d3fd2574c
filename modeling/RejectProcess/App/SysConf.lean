import Mathlib.Data.UInt

/-!
# The system configuration

The fields of `G_SYS_CONFIG` (`app/sys_conf.h`) that the reject process reads after start-up.
All but `posTestItem` are loaded once by `sc_system_init` and never written again.
-/

namespace RejectProcess

/-- `G_SYS_CONFIG`. -/
structure SysConfig where
  kickMode : UInt32
  c1Kt1Delay : UInt32
  c1C2Delay : UInt32
  kt1Kp1Delay : UInt32
  kp1Kt2Delay : UInt32
  sampleLength : UInt32
  video2Valid : UInt32
  posTestItem : UInt32
deriving DecidableEq, Repr

/-- The default values that `sc_system_init` names.  With `DEBUG` defined, as it is in `key_file.c`, a
missing entry ends the process, so they are in force where the file has just these entries. -/
def SysConfig.default : SysConfig where
  kickMode := 0
  c1Kt1Delay := 1000
  c1C2Delay := 500
  kt1Kp1Delay := 1000
  kp1Kt2Delay := 1000
  sampleLength := 1000
  video2Valid := 0
  posTestItem := 0

end RejectProcess
