import PodAttach.Config.Settings
import PodAttach.Json.Access

/-!
# Settings as they are given
-/

namespace PodAttach.Given

open Json.Access

/-- The settings; those that are missing have their defaults. -/
def settings (v : Json) : Config.Settings :=
  let base : Config.Settings := {}
  let duration := fun k d => ((nat? v k).map Duration.ofMillis).getD d
  { cniSocket := (text? v "cni_socket").getD base.cniSocket
    ovsBridge := (text? v "ovs_bridge").getD base.ovsBridge
    procRoot := (text? v "host_proc_path_prefix").getD base.procRoot
    descriptorDir := (text? v "descriptor_dir").getD base.descriptorDir
    networkReadyTimeout := duration "network_ready_timeout" base.networkReadyTimeout
    lockTimeout := (nat? v "lock_timeout").map .ofMillis
    ofportWait := duration "ofport_wait" base.ofportWait
    ovsCommandTimeout := duration "ovs_command_timeout" base.ovsCommandTimeout
    logLevel := (text? v "log_level").getD base.logLevel
    logFormat := ((text? v "log_format").bind Config.LogFormat.parse?).getD base.logFormat }

end PodAttach.Given
