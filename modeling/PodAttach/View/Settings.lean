import PodAttach.Agent.Handle
import PodAttach.View.Basic

/-!
# Settings as they are shown
-/

namespace PodAttach.View

/-- The settings. -/
def settings (s : Config.Settings) : Json :=
  .obj [
    ("cni_socket", str s.cniSocket),
    ("ovs_bridge", str s.ovsBridge),
    ("host_proc_path_prefix", str s.procRoot),
    ("descriptor_dir", str s.descriptorDir),
    ("network_ready_timeout", millis s.networkReadyTimeout),
    ("lock_timeout", orNull (s.lockTimeout.map millis)),
    ("ofport_wait", millis s.ofportWait),
    ("ovs_command_timeout", millis s.ovsCommandTimeout),
    ("log_level", str s.logLevel),
    ("log_format", str s.logFormat.name)]

/-- How requests are served. -/
def options (o : Agent.Options) : Json :=
  .obj [
    ("host_proc_path_prefix", str o.procRoot),
    ("network_ready_timeout", millis o.readyTimeout),
    ("lock_timeout", orNull (o.lockTimeout.map millis))]

end PodAttach.View
