import Aspia.Host.ScreenUpdater
import Aspia.Host.ScreenUpdaterSafety
import Aspia.DesktopCapture.ScreenCapturerGDI
import Aspia.DesktopCapture.ScreenCapturerGDIRing
import Aspia.DesktopCapture.ScreenCapturerGDIFaults
import Aspia.DesktopCapture.Cursor
import Aspia.DesktopCapture.CursorReconstruction
import Aspia.SystemInfo.DmiEnumerator
import Aspia.SystemInfo.DmiStructures
import Aspia.SystemInfo.DmiTable
import Aspia.SystemInfo.DmiEntries
import Aspia.SystemInfo.DmiDecode
import Aspia.SystemInfo.DmiBiosFields
