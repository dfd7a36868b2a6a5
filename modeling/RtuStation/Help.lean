/-!
# Help

What the program prints about itself: its usage, and how the banks are named (`REGISTER_MAPPING` of
`main`).
-/

namespace RtuStation

def programName : String := "modbus-rtu-shm"

def helpLines : List String :=
  [
    "Modbus RTU responder that keeps its register banks in named POSIX shared memory",
    "",
    "Usage: modbus-rtu-shm [OPTIONS] --device <DEVICE> --id <ID>",
    "",
    "Options:",
    "  -d, --device <DEVICE>",
    "          Serial device",
    "  -i, --id <ID>",
    "          Modbus RTU slave id (1-247)",
    "  -p, --parity <PARITY>",
    "          Serial parity bit (N(one), E(ven), O(dd)) [default: N]",
    "      --data-bits <DATA_BITS>",
    "          Serial data bits (5-8) [default: 8]",
    "      --stop-bits <STOP_BITS>",
    "          Serial stop bits (1-2) [default: 1]",
    "  -b, --baud <BAUD>",
    "          Serial baud [default: 9600]",
    "      --rs485",
    "          Force to use rs485 mode",
    "      --rs232",
    "          Force to use rs232 mode",
    "  -n, --name-prefix <NAME_PREFIX>",
    "          Shared memory name prefix [default: modbus_]",
    "      --do-registers <DO_REGISTERS>",
    "          Number of digital output registers [default: 65536]",
    "      --di-registers <DI_REGISTERS>",
    "          Number of digital input registers [default: 65536]",
    "      --ao-registers <AO_REGISTERS>",
    "          Number of analog output registers [default: 65536]",
    "      --ai-registers <AI_REGISTERS>",
    "          Number of analog input registers [default: 65536]",
    "  -m, --monitor",
    "          Output all incoming and outgoing packets to stdout",
    "      --force",
    "          Remove and recreate shared memory that already exists",
    "      --permissions <PERMISSIONS>",
    "          Octal permissions of the shared memory objects [default: 660]",
    "      --semaphore <SEMAPHORE>",
    "          Protect register access with the named semaphore",
    "      --semaphore-force",
    "          Remove and recreate the semaphore if it already exists",
    "      --byte-timeout <BYTE_TIMEOUT>",
    "          Longest silence between two bytes of a request, in seconds",
    "      --response-timeout <RESPONSE_TIMEOUT>",
    "          Longest time to transmit a reply, in seconds",
    "  -h, --help",
    "          Print help",
    "  -V, --version",
    "          Print version",
    "",
    "The modbus registers are mapped to shared memory objects:",
    "    type | name                      | master-access   | shm name",
    "    -----|---------------------------|-----------------|----------------",
    "    DO   | Discrete Output Coils     | read-write      | <name-prefix>DO",
    "    DI   | Discrete Input Coils      | read-only       | <name-prefix>DI",
    "    AO   | Discrete Output Registers | read-write      | <name-prefix>AO",
    "    AI   | Discrete Input Registers  | read-only       | <name-prefix>AI"]

def helpText : String := String.join (helpLines.map fun l => l ++ "\n")

def versionText : String := programName ++ " 0.1.0\n"

def adviceText : String := "Use '" ++ programName ++ " --help' for more information."

end RtuStation
